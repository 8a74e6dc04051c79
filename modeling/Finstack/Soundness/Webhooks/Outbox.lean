import Finstack.Foundation.RowHistory
import Finstack.Model.Webhooks.Events

/-! # No webhook and no event is lost

A webhook is stored by the commit that stores its command. An outbox row changes only in the hands
of the relay that has locked it, which marks it after the queue has the job, and only marked rows
are deleted. A crash takes back what the database has not committed, never a job: an event can be
published twice, but not left out.
-/

namespace Finstack.Webhooks

open Foundation Outbox PaymentProviders

variable {β η ι : Type} [DecidableEq ι]

/-- What a transaction may make of a committed outbox row. -/
def Revises (id : Uuid) : Option Outbox.OutboxEvent → Option Outbox.OutboxEvent → Prop
  | none, _ => True
  | some event, none => event.status = .published
  | some event, some event' => jobOf id event' = jobOf id event

theorem Revises.refl (id : Uuid) (row : Option Outbox.OutboxEvent) : Revises id row row := by
  cases row with
  | none => trivial
  | some event => rfl

/-- A stored webhook event stays, under its key. -/
def Stays (_ : Uuid) : Option WebhookEvent → Option WebhookEvent → Prop
  | none, _ => True
  | some _, none => False
  | some event, some event' => event'.provider = event.provider ∧ event'.eventId = event.eventId

theorem Stays.refl (id : Uuid) (row : Option WebhookEvent) : Stays id row row := by
  cases row with
  | none => trivial
  | some event => exact ⟨rfl, rfl⟩

theorem Stays.trans {id : Uuid} {row row' row'' : Option WebhookEvent} (first : Stays id row row')
    (second : Stays id row' row'') : Stays id row row'' := by
  cases row with
  | none => trivial
  | some event =>
    cases row' with
    | none => exact first.elim
    | some event' =>
      cases row'' with
      | none => exact second.elim
      | some event'' => exact ⟨second.1.trans first.1, second.2.trans first.2⟩

/-! ## The tables -/

structure EventsInv (events : RowStore Uuid WebhookEvent ι) (ids : List Uuid) : Prop where
  one : ∀ provider eventId, events.OneOf (WebhookEvent.HasKey provider eventId)
  within : events.Within ids
  follows : events.Follows Stays

/-- Every version of a row that says so was published. -/
structure OutboxInv (outbox : RowStore Uuid Outbox.OutboxEvent ι) (ids : List Uuid) (jobs : List Job) :
    Prop where
  within : outbox.Within ids
  published : outbox.Every fun id event => event.status = .published → jobOf id event ∈ jobs
  follows : outbox.Follows Revises

section EventsInv

variable {events : RowStore Uuid WebhookEvent ι} {ids : List Uuid} {i : ι} {id : Uuid}

theorem EventsInv.lock (inv : EventsInv events ids) (free : events.Free i id) (known : id ∈ ids) :
    EventsInv (events.lock i id) ids :=
  ⟨fun provider eventId => (inv.one provider eventId).lock free, inv.within.lock known,
    inv.follows.lock free⟩

theorem EventsInv.commit (inv : EventsInv events ids) : EventsInv (events.commit i) ids :=
  ⟨fun provider eventId => (inv.one provider eventId).commit, inv.within.commit,
    inv.follows.commit Stays.refl⟩

theorem EventsInv.rollback (inv : EventsInv events ids) : EventsInv (events.rollback i) ids :=
  ⟨fun provider eventId => (inv.one provider eventId).rollback, inv.within.rollback,
    inv.follows.rollback Stays.refl⟩

/-- `ON CONFLICT DO NOTHING` has found nothing. -/
theorem EventsInv.insert (inv : EventsInv events ids) {event : WebhookEvent} (new : id ∉ ids)
    (taken : ¬ events.Taken (WebhookEvent.HasKey event.provider event.eventId) ids i id)
    (waits : ¬ events.Waits (WebhookEvent.HasKey event.provider event.eventId) ids i id) :
    EventsInv (events.write i id (some event)) (id :: ids) := by
  obtain ⟨absent, unheld⟩ := inv.within id new
  have free : events.Free i id := .inl unheld
  refine ⟨fun provider eventId => ?_, inv.within.cons.write List.mem_cons_self,
    inv.follows.write free ?_⟩
  · by_cases key : event.HasKey provider eventId = true
    · obtain ⟨rfl, rfl⟩ := of_decide_eq_true key
      exact (inv.one _ _).write free (RowStore.clear_of_not_taken inv.within taken waits)
    · exact (inv.one _ _).write_other free key
  · rw [absent]
    trivial

/-- An update leaves the key. -/
theorem EventsInv.rewrite (inv : EventsInv events ids) {event event' : WebhookEvent}
    (free : events.Free i id) (seen : events.view i id = some event)
    (same : Stays id (some event) (some event')) :
    EventsInv (events.write i id (some event')) ids := by
  refine ⟨fun provider eventId => (inv.one provider eventId).rewrite free seen ?_,
    inv.within.write (inv.within.of_view (by rw [seen]; rfl)), inv.follows.write free ?_⟩
  · unfold WebhookEvent.HasKey
    rw [same.1, same.2]
  · have before := inv.follows i id
    rw [seen] at before
    exact before.trans same

end EventsInv

section OutboxInv

variable {outbox : RowStore Uuid Outbox.OutboxEvent ι} {ids : List Uuid} {jobs : List Job} {i : ι}
  {id : Uuid}

theorem OutboxInv.lock (inv : OutboxInv outbox ids jobs) (free : outbox.Free i id)
    (known : id ∈ ids) : OutboxInv (outbox.lock i id) ids jobs :=
  ⟨inv.within.lock known, inv.published.lock free, inv.follows.lock free⟩

theorem OutboxInv.commit (inv : OutboxInv outbox ids jobs) :
    OutboxInv (outbox.commit i) ids jobs :=
  ⟨inv.within.commit, inv.published.commit, inv.follows.commit Revises.refl⟩

theorem OutboxInv.rollback (inv : OutboxInv outbox ids jobs) :
    OutboxInv (outbox.rollback i) ids jobs :=
  ⟨inv.within.rollback, inv.published.rollback, inv.follows.rollback Revises.refl⟩

theorem OutboxInv.publish (inv : OutboxInv outbox ids jobs) (job : Job) :
    OutboxInv outbox ids (job :: jobs) := by
  refine ⟨inv.within, fun id event shows_ marked => ?_, inv.follows⟩
  exact List.mem_cons_of_mem job (inv.published id event shows_ marked)

theorem OutboxInv.insert (inv : OutboxInv outbox ids jobs) (new : id ∉ ids)
    (event : NewOutboxEvent) (now : Nat) :
    OutboxInv (outbox.write i id (some (event.add now))) (id :: ids) jobs := by
  obtain ⟨absent, unheld⟩ := inv.within id new
  refine ⟨inv.within.cons.write List.mem_cons_self, inv.published.write (.inl unheld) ?_,
    inv.follows.write (.inl unheld) ?_⟩
  · intro row written marked
    cases written
    cases marked
  · rw [absent]
    trivial

/-- A row is changed by the one who has it, and published if it says so. -/
theorem OutboxInv.rewrite (inv : OutboxInv outbox ids jobs) {row row' : Outbox.OutboxEvent}
    (free : outbox.Free i id) (seen : outbox.view i id = some row)
    (same : jobOf id row' = jobOf id row)
    (published : row'.status = .published → jobOf id row' ∈ jobs) :
    OutboxInv (outbox.write i id (some row')) ids jobs := by
  refine ⟨inv.within.write (inv.within.of_view (by rw [seen]; rfl)),
    inv.published.write free ?_, inv.follows.write free ?_⟩
  · intro row written
    cases written
    exact published
  · have before := inv.follows i id
    rw [seen] at before
    cases committed : outbox.rows id with
    | none => trivial
    | some event =>
      rw [committed] at before
      exact same.trans before

theorem OutboxInv.delete (inv : OutboxInv outbox ids jobs) {row : Outbox.OutboxEvent}
    (free : outbox.holder id = none) (seen : outbox.view i id = some row)
    (marked : row.status = .published) : OutboxInv (outbox.write i id none) ids jobs := by
  refine ⟨inv.within.write (inv.within.of_view (by rw [seen]; rfl)),
    inv.published.write (.inl free) (by simp), inv.follows.write (.inl free) ?_⟩
  rw [RowStore.view_of_not_held (by simp [free])] at seen
  rw [seen]
  exact marked

end OutboxInv

/-! ## What a call holds -/

namespace System

variable (s : System ι) (i : ι)

/-- The webhook events of `i` that nobody has stored before. -/
def StoresOnly (P : Uuid → Prop) : Prop :=
  ∀ id, s.events.holder id = some i → s.events.rows id = none → P id

def NoEvents : Prop := ∀ id, s.events.holder id ≠ some i

def NoOutbox : Prop := ∀ id, s.outbox.holder id ≠ some i

/-- A new command to process this webhook event. -/
def Commands (webhookEventId : Uuid) : Prop :=
  ∃ id now, s.outbox.holder id = some i ∧ s.outbox.rows id = none ∧
    s.outbox.view i id = some ((scheduleProcessing webhookEventId).add now)

/-- The row of a selected event, with the event's job. -/
def Claims (selected : Uuid × Outbox.OutboxEvent) : Prop :=
  s.outbox.holder selected.1 = some i ∧ ∃ row, s.outbox.view i selected.1 = some row ∧
    jobOf selected.1 row = jobOf selected.1 selected.2

/-- A relay holds what it has selected, and what is still to come. -/
def Relays (events remaining : Batch) : Prop :=
  s.NoEvents i ∧ (∀ selected ∈ events, s.Claims i selected) ∧ remaining ⊆ events

end System

def Pc.Holds (s : System ι) (i : ι) : Pc → Prop
  | .scheduling webhookEventId _ _ => s.StoresOnly i (· = webhookEventId) ∧ s.NoOutbox i
  | .commit _ => s.StoresOnly i (s.Commands i)
  | .updating webhookEventId _ => s.StoresOnly i (fun _ => False) ∧ s.NoOutbox i ∧
    s.events.holder webhookEventId = some i
  | .recording _ _ => s.NoEvents i
  | .claiming _ _ events => s.Relays i events []
  | .publishing events remaining _ => s.Relays i events remaining
  | .marking events id event remaining _ =>
    s.Relays i events ((id, event) :: remaining) ∧ jobOf id event ∈ s.jobs
  | .failing events id event _ remaining _ => s.Relays i events ((id, event) :: remaining)
  | .deleting _ _ _ => s.NoEvents i ∧
    ∀ id, s.outbox.holder id = some i → s.outbox.view i id = none
  | _ => s.NoEvents i ∧ s.NoOutbox i

section Keeps

variable {s s' : System ι} {j : ι}

theorem System.StoresOnly.keeps {P P' : Uuid → Prop} (only : s.StoresOnly j P)
    (events : s.events.Keeps s'.events j) (weaker : ∀ id, P id → P' id) : s'.StoresOnly j P' := by
  intro id held absent
  have mine := (events id).1.mp held
  rw [((events id).2 mine).1] at absent
  exact weaker id (only id mine absent)

theorem System.Commands.keeps {webhookEventId : Uuid} (commands : s.Commands j webhookEventId)
    (outbox : s.outbox.Keeps s'.outbox j) : s'.Commands j webhookEventId := by
  obtain ⟨id, now, held, absent, row⟩ := commands
  obtain ⟨rows, view⟩ := (outbox id).2 held
  exact ⟨id, now, (outbox id).1.mpr held, rows.trans absent, view.trans row⟩

theorem System.Claims.keeps {selected : Uuid × Outbox.OutboxEvent} (claims : s.Claims j selected)
    (outbox : s.outbox.Keeps s'.outbox j) : s'.Claims j selected := by
  obtain ⟨held, row, seen, same⟩ := claims
  exact ⟨(outbox _).1.mpr held, row, ((outbox _).2 held).2.trans seen, same⟩

/-- What the others do leaves a call with what it holds. -/
theorem Pc.Holds.keeps {pc : Pc} (holds : pc.Holds s j) (events : s.events.Keeps s'.events j)
    (outbox : s.outbox.Keeps s'.outbox j) (jobs : s.jobs ⊆ s'.jobs) : pc.Holds s' j := by
  have noEvents : s.NoEvents j → s'.NoEvents j := fun free id held => free id ((events id).1.mp held)
  have noOutbox : s.NoOutbox j → s'.NoOutbox j := fun free id held => free id ((outbox id).1.mp held)
  have relays : ∀ {selected remaining}, s.Relays j selected remaining →
      s'.Relays j selected remaining := fun ⟨unheld, claims, sub⟩ =>
    ⟨noEvents unheld, fun event mem => (claims event mem).keeps outbox, sub⟩
  cases pc with
  | scheduling => exact ⟨holds.1.keeps events fun _ same => same, noOutbox holds.2⟩
  | commit => exact System.StoresOnly.keeps holds events fun _ commands => commands.keeps outbox
  | updating webhookEventId now =>
    exact ⟨holds.1.keeps events fun _ none => none, noOutbox holds.2.1,
      (events webhookEventId).1.mpr holds.2.2⟩
  | recording => exact noEvents holds
  | claiming => exact relays holds
  | publishing => exact relays holds
  | marking => exact ⟨relays holds.1, jobs holds.2⟩
  | failing => exact relays holds
  | deleting =>
    refine ⟨noEvents holds.1, fun id held => ?_⟩
    have mine := (outbox id).1.mp held
    exact ((outbox id).2 mine).2.trans (holds.2 id mine)
  | inserting | locking | rereading | processing | finishing | returned | threw | crashed =>
    exact ⟨noEvents holds.1, noOutbox holds.2⟩

end Keeps

namespace System

variable {s s' : System ι} {i : ι} {pc : Pc} {id : Uuid}

/-! ## One step -/

structure Inv (s : System ι) : Prop where
  events : EventsInv s.events s.eventIds
  outbox : OutboxInv s.outbox s.outboxIds s.jobs
  idle : ∀ i, s.calls i = none → s.NoEvents i ∧ s.NoOutbox i
  calls : ∀ i pc, s.calls i = some pc → pc.Holds s i

/-- This webhook event is stored, and a command to process it. -/
def Schedules (s s' : System ι) (webhookEventId : Uuid) : Prop :=
  s.events.rows webhookEventId = none ∧ (s'.events.rows webhookEventId).isSome ∧
    ∃ id now, s.outbox.rows id = none ∧
      s'.outbox.rows id = some ((scheduleProcessing webhookEventId).add now)

/-- The next state, with what a step may do to what is committed. -/
structure Next (s s' : System ι) : Prop where
  inv : s'.Inv
  stores : ∀ webhookEventId, s.events.rows webhookEventId = none →
    (s'.events.rows webhookEventId).isSome → s.Schedules s' webhookEventId
  stays : ∀ id, Stays id (s.events.rows id) (s'.events.rows id)
  revises : ∀ id, Revises id (s.outbox.rows id) (s'.outbox.rows id)
  jobs : s.jobs ⊆ s'.jobs

/-- The invariant where `i` has taken a step. -/
theorem Inv.put (inv : s.Inv) (calls : s'.calls = Function.update s.calls i (some pc))
    (events : EventsInv s'.events s'.eventIds)
    (outbox : OutboxInv s'.outbox s'.outboxIds s'.jobs)
    (keepsEvents : ∀ j, j ≠ i → s.events.Keeps s'.events j)
    (keepsOutbox : ∀ j, j ≠ i → s.outbox.Keeps s'.outbox j) (jobs : s.jobs ⊆ s'.jobs)
    (holds : pc.Holds s' i) : s'.Inv where
  events := events
  outbox := outbox
  idle j new := by
    rw [calls] at new
    rcases eq_or_ne j i with rfl | other
    · simp at new
    · rw [Function.update_of_ne other] at new
      obtain ⟨noEvents, noOutbox⟩ := inv.idle j new
      exact ⟨fun id held => noEvents id ((keepsEvents j other id).1.mp held),
        fun id held => noOutbox id ((keepsOutbox j other id).1.mp held)⟩
  calls j pc' here := by
    rw [calls] at here
    rcases eq_or_ne j i with rfl | other
    · obtain rfl : pc = pc' := by simpa using here
      exact holds
    · rw [Function.update_of_ne other] at here
      exact (inv.calls j pc' here).keeps (keepsEvents j other) (keepsOutbox j other) jobs

/-- A step that commits nothing. -/
theorem Next.of_rows (inv : s'.Inv) (events : s'.events.rows = s.events.rows)
    (outbox : s'.outbox.rows = s.outbox.rows) (jobs : s.jobs ⊆ s'.jobs) : s.Next s' where
  inv := inv
  stores webhookEventId absent stored := by
    rw [events, absent] at stored
    cases stored
  stays id := by
    rw [events]
    exact Stays.refl id _
  revises id := by
    rw [outbox]
    exact Revises.refl id _
  jobs := jobs

theorem Inv.goto (inv : s.Inv) (holds : pc.Holds s i) : s.Next (s.goto i pc) := by
  refine .of_rows (inv.put rfl inv.events inv.outbox (fun j _ => .refl _ j) (fun j _ => .refl _ j)
    (List.Subset.refl _) ?_) rfl rfl (List.Subset.refl _)
  exact holds.keeps (.refl _ i) (.refl _ i) (List.Subset.refl _)

theorem noEvents_rollback : (s.rollback i).NoEvents i :=
  fun _ held => (RowStore.holder_rollback.mp held).2 rfl

theorem noOutbox_rollback : (s.rollback i).NoOutbox i :=
  fun _ held => (RowStore.holder_rollback.mp held).2 rfl

theorem Inv.rollback (inv : s.Inv) (ended : pc.ended = true) :
    s.Next ((s.rollback i).goto i pc) := by
  refine .of_rows (inv.put rfl inv.events.rollback inv.outbox.rollback
    (fun _ other => RowStore.keeps_rollback other) (fun _ other => RowStore.keeps_rollback other)
    (List.Subset.refl _) ?_) rfl rfl (List.Subset.refl _)
  cases pc with
  | returned | threw | crashed =>
    exact ⟨noEvents_rollback (s := s), noOutbox_rollback (s := s)⟩
  | _ => cases ended

/-- A step that only changes the outbox, and commits nothing. -/
theorem Inv.putOutbox (inv : s.Inv) {outbox : RowStore Uuid Outbox.OutboxEvent ι} {ids : List Uuid}
    (still : OutboxInv outbox ids s.jobs) (rows : outbox.rows = s.outbox.rows)
    (keeps : ∀ j, j ≠ i → s.outbox.Keeps outbox j)
    (holds : pc.Holds { s.goto i pc with outbox := outbox, outboxIds := ids } i) :
    s.Next { s.goto i pc with outbox := outbox, outboxIds := ids } :=
  .of_rows (inv.put rfl inv.events still (fun j _ => .refl _ j) keeps (List.Subset.refl _) holds)
    rfl rows (List.Subset.refl _)

/-- A step that only changes the webhook events, and commits nothing. -/
theorem Inv.putEvents (inv : s.Inv) {events : RowStore Uuid WebhookEvent ι} {ids : List Uuid}
    (still : EventsInv events ids) (rows : events.rows = s.events.rows)
    (keeps : ∀ j, j ≠ i → s.events.Keeps events j)
    (holds : pc.Holds { s.goto i pc with events := events, eventIds := ids } i) :
    s.Next { s.goto i pc with events := events, eventIds := ids } :=
  .of_rows (inv.put rfl still inv.outbox keeps (fun j _ => .refl _ j) (List.Subset.refl _) holds)
    rows rfl (List.Subset.refl _)

omit [DecidableEq ι] in
theorem StoresOnly.of_noEvents {P : Uuid → Prop} (none : s.NoEvents i) : s.StoresOnly i P :=
  fun id held _ => (none id held).elim

/-! ### Commits -/

theorem Inv.commit (inv : s.Inv) (only : s.StoresOnly i (s.Commands i)) (after : After) :
    s.Next ((s.commit i).goto i after.next) where
  inv := by
    have noEvents : (s.commit i).NoEvents i := fun _ held => (RowStore.holder_commit.mp held).2 rfl
    have noOutbox : (s.commit i).NoOutbox i := fun _ held => (RowStore.holder_commit.mp held).2 rfl
    refine inv.put rfl inv.events.commit inv.outbox.commit
      (fun _ other => RowStore.keeps_commit other) (fun _ other => RowStore.keeps_commit other)
      (List.Subset.refl _) ?_
    cases after with
    | answer => exact ⟨noEvents, noOutbox⟩
    | reread => exact ⟨noEvents, noOutbox⟩
  stores webhookEventId absent stored := by
    change (s.events.view i webhookEventId).isSome at stored
    have held : s.events.holder webhookEventId = some i := by
      by_contra other
      rw [RowStore.view_of_not_held other, absent] at stored
      cases stored
    obtain ⟨id, now, -, new, command⟩ := only webhookEventId held absent
    exact ⟨absent, stored, id, now, new, command⟩
  stays := inv.events.follows i
  revises := inv.outbox.follows i
  jobs := List.Subset.refl _

/-- An update that commits by itself stores nothing new. -/
theorem Inv.autocommit (inv : s.Inv) (noEvents : s.NoEvents i)
    {event event' : WebhookEvent} {result : Result} (free : s.events.Free i id)
    (seen : s.events.view i id = some event) (same : Stays id (some event) (some event')) :
    s.Next ((({ s with events := s.events.write i id (some event') }).commit i).goto i
      (.returned result)) where
  inv := by
    refine inv.put rfl (inv.events.rewrite free seen same).commit inv.outbox.commit
      (fun _ other => (RowStore.keeps_write other free).trans (RowStore.keeps_commit other))
      (fun _ other => RowStore.keeps_commit other) (List.Subset.refl _) ?_
    exact ⟨fun _ held => (RowStore.holder_commit.mp held).2 rfl,
      fun _ held => (RowStore.holder_commit.mp held).2 rfl⟩
  stores webhookEventId absent stored := by
    have rows : ((s.events.write i id (some event')).commit i).rows =
        Function.update s.events.rows id (some event') := RowStore.rows_commit_write noEvents
    change (((s.events.write i id (some event')).commit i).rows webhookEventId).isSome at stored
    rw [RowStore.view_of_not_held (noEvents id)] at seen
    have other : webhookEventId ≠ id := by
      rintro rfl
      rw [seen] at absent
      cases absent
    rw [rows, Function.update_of_ne other, absent] at stored
    cases stored
  stays := (inv.events.rewrite free seen same).follows i
  revises := inv.outbox.follows i
  jobs := List.Subset.refl _

/-! ### Inserts -/

theorem Inv.add (inv : s.Inv) {event : NewOutboxEvent} {now : Nat} {next : Pc}
    (adds : s.add i id event now next = some s')
    (holds : id ∉ s.outboxIds → next.Holds { s.goto i next with
      outbox := s.outbox.write i id (some (event.add now)), outboxIds := id :: s.outboxIds } i) :
    s.Next s' := by
  unfold System.add at adds
  split_ifs at adds with known
  cases adds
  have free : s.outbox.Free i id := .inl (inv.outbox.within id known).2
  exact inv.putOutbox (inv.outbox.insert known event now) RowStore.rows_write
    (fun _ other => RowStore.keeps_write other free) (holds known)

theorem Inv.insertNext (inv : s.Inv) (here : s.calls i = some pc)
    (inserts : s.insertNext i id pc = some s') : s.Next s' := by
  have holds := inv.calls i pc here
  cases pc <;> try cases inserts
  case inserting event now =>
    obtain ⟨noEvents, noOutbox⟩ := holds
    simp only [System.insertNext] at inserts
    split_ifs at inserts with known taken waits
    · cases inserts
      exact inv.goto (StoresOnly.of_noEvents noEvents)
    · cases inserts
      have free : s.events.Free i id := .inl (inv.events.within id known).2
      refine inv.putEvents (inv.events.insert known taken waits) RowStore.rows_write
        (fun _ other => RowStore.keeps_write other free) ⟨fun l held _ => ?_, noOutbox⟩
      by_contra other
      exact noEvents l ((RowStore.holder_write_ne other).symm.trans held)
  case scheduling webhookEventId now after =>
    refine inv.add inserts fun known l held absent => ?_
    obtain rfl := holds.1 l held absent
    exact ⟨id, now, RowStore.holder_write_self, (inv.outbox.within id known).1,
      RowStore.view_write_self⟩
  case recording events now =>
    cases events with
    | nil => cases inserts
    | cons event events => exact inv.add inserts fun _ => holds

/-! ### The relay -/

theorem Relays.mono {events remaining remaining' : Batch} (relays : s.Relays i events remaining)
    (sub : remaining' ⊆ remaining) : s.Relays i events remaining' :=
  ⟨relays.1, relays.2.1, List.Subset.trans sub relays.2.2⟩

/-- A relay keeps what it has selected when it updates a row. -/
theorem Relays.write {events remaining : Batch} {row row' : Outbox.OutboxEvent}
    (relays : s.Relays i events remaining) (seen : s.outbox.view i id = some row)
    (same : jobOf id row' = jobOf id row) (next : Pc) :
    Relays { s.goto i next with outbox := s.outbox.write i id (some row') } i events remaining := by
  refine ⟨relays.1, fun selected member => ?_, relays.2.2⟩
  obtain ⟨held, before, seen', job⟩ := relays.2.1 selected member
  by_cases this : selected.1 = id
  · subst this
    obtain rfl := Option.some.inj (seen.symm.trans seen')
    exact ⟨RowStore.holder_write_self, row', RowStore.view_write_self, same.trans job⟩
  · exact ⟨(RowStore.holder_write_ne this).trans held, before,
      (RowStore.view_write_ne this).trans seen', job⟩

/-- An update of the row of an event that the relay has selected. -/
theorem Inv.update (inv : s.Inv) {events remaining : Batch} {event : Outbox.OutboxEvent}
    {change : Outbox.OutboxEvent → Outbox.OutboxEvent} {next : Pc}
    (relays : s.Relays i events ((id, event) :: remaining))
    (same : ∀ row, jobOf id (change row) = jobOf id row)
    (published : ∀ row, s.outbox.view i id = some row → jobOf id row = jobOf id event →
      (change row).status = .published → jobOf id row ∈ s.jobs)
    (updates : s.update i id change next = some s')
    (holds : ∀ s' : System ι, s'.Relays i events ((id, event) :: remaining) → s'.jobs = s.jobs →
      next.Holds s' i) : s.Next s' := by
  obtain ⟨held, row, seen, job⟩ := relays.2.1 (id, event) (relays.2.2 List.mem_cons_self)
  have free : s.outbox.Free i id := .inr held
  simp only [System.update, if_pos free] at updates
  rw [seen] at updates
  cases updates
  refine inv.putOutbox (inv.outbox.rewrite free seen (same row) ?_) RowStore.rows_write
    (fun _ other => RowStore.keeps_write other free) ?_
  · rw [same]
    exact published row seen job
  · exact holds _ (relays.write seen (same row) next) rfl

theorem Inv.publish (inv : s.Inv) (here : s.calls i = some pc) {answer : PublishAnswer}
    (publishes : s.publish i answer pc = some s') : s.Next s' := by
  have holds := inv.calls i pc here
  cases pc <;> try cases publishes
  case publishing events remaining published =>
    cases remaining with
    | nil => cases publishes
    | cons selected remaining =>
      obtain ⟨id, event⟩ := selected
      -- the queue has the job, whatever it has answered
      have added : ∀ {pc}, (jobOf id event ∈ jobOf id event :: s.jobs → pc.Holds
          { s.goto i pc with jobs := jobOf id event :: s.jobs } i) →
          s.Next { s.goto i pc with jobs := jobOf id event :: s.jobs } := by
        intro pc holds
        refine .of_rows (inv.put rfl inv.events (inv.outbox.publish _) (fun j _ => .refl _ j)
          (fun j _ => .refl _ j) (List.subset_cons_self ..) (holds List.mem_cons_self)) rfl rfl
          (List.subset_cons_self ..)
      cases answer with
      | resolved =>
        cases publishes
        exact added fun member => ⟨holds, member⟩
      | rejected reached error =>
        cases reached <;> cases publishes
        · exact inv.goto holds
        · exact added fun _ => holds

theorem Inv.markPublished (inv : s.Inv) {events remaining : Batch} {event : Outbox.OutboxEvent}
    {date : Nat} {next : Pc} (relays : s.Relays i events ((id, event) :: remaining))
    (done : jobOf id event ∈ s.jobs)
    (updates : s.update i id (fun row => row.markPublished event date) next = some s')
    (holds : ∀ s' : System ι, s'.Relays i events ((id, event) :: remaining) → s'.jobs = s.jobs →
      next.Holds s' i) : s.Next s' := by
  refine inv.update relays (fun row => jobOf_markPublished id row event date) ?_ updates holds
  intro row _ job _
  rw [job]
  exact done

theorem Inv.updateThrows (inv : s.Inv) (here : s.calls i = some pc) {date : Nat} {executed : Bool}
    {error : String} (throws : s.updateThrows i date executed error pc = some s') : s.Next s' := by
  have holds := inv.calls i pc here
  cases pc <;> try cases throws
  case marking events id event remaining published =>
    cases executed with
    | false =>
      cases throws
      exact inv.goto holds.1
    | true => exact inv.markPublished holds.1 holds.2 throws fun s' relays _ => relays

/-- A row that is locked by someone else is left out. -/
theorem Inv.claim (inv : s.Inv) {now : Nat} {candidates : List Uuid} {events : Batch}
    (relays : s.Relays i events []) : s.Next (s.claim i now id candidates events) := by
  unfold System.claim
  split_ifs with free
  · split
    next => exact inv.goto relays
    next event seen =>
      have known := inv.outbox.within.of_view (i := i) (by rw [seen]; rfl)
      refine inv.putOutbox (inv.outbox.lock free known) RowStore.rows_lock
        (fun _ other => RowStore.keeps_lock other free) ⟨relays.1, ?_, List.nil_subset _⟩
      have before : ∀ selected ∈ events, Claims { s with outbox := s.outbox.lock i id } i selected := by
        intro selected member
        obtain ⟨held, row, seen', job⟩ := relays.2.1 selected member
        refine ⟨?_, row, (congrFun RowStore.view_lock _).trans seen', job⟩
        by_cases this : selected.1 = id
        · rw [this]
          exact RowStore.holder_lock_self
        · exact (RowStore.holder_lock_ne this).trans held
      intro selected member
      split_ifs at member
      · rcases List.mem_append.mp member with earlier | this
        · exact before selected earlier
        · obtain rfl := List.mem_singleton.mp this
          exact ⟨RowStore.holder_lock_self, event, (congrFun RowStore.view_lock _).trans seen, rfl⟩
      · exact before selected member
  · exact inv.goto relays

/-! ### The cleanup -/

theorem Inv.delete (inv : s.Inv) (here : s.calls i = some pc)
    (deletes : s.delete i id pc = some s') : s.Next s' := by
  have holds := inv.calls i pc here
  cases pc <;> try cases deletes
  case deleting now candidates affected =>
    simp only [System.delete] at deletes
    split_ifs at deletes with may
    split at deletes
    next =>
      cases deletes
      exact inv.goto holds
    next event seen =>
      split_ifs at deletes with finished <;> cases deletes
      · -- a row that it has locked is gone already
        have unheld : s.outbox.holder id = none := by
          refine may.2.resolve_right fun held => ?_
          rw [holds.2 id held] at seen
          cases seen
        refine inv.putOutbox (inv.outbox.delete unheld seen finished.1) RowStore.rows_write
          (fun _ other => RowStore.keeps_write other may.2) ⟨holds.1, fun l held => ?_⟩
        rcases eq_or_ne l id with rfl | other
        · exact RowStore.view_write_self
        · exact (RowStore.view_write_ne other).trans
            (holds.2 l ((RowStore.holder_write_ne other).symm.trans held))
      · exact inv.goto holds

/-! ### Any step -/

theorem Inv.advance (inv : s.Inv) (here : s.calls i = some pc) {date : Nat}
    (advances : s.advance i date pc = some s') : s.Next s' := by
  have holds := inv.calls i pc here
  cases pc with
  | inserting | scheduling | returned | threw | crashed => cases advances
  | commit after =>
    cases advances
    exact inv.commit holds after
  | locking webhookEventId now =>
    obtain ⟨noEvents, noOutbox⟩ := holds
    simp only [System.advance] at advances
    split_ifs at advances with free
    split at advances
    next =>
      cases advances
      exact inv.rollback rfl
    next event seen =>
      split_ifs at advances <;> cases advances
      · have known := inv.events.within.of_view (i := i) (by rw [seen]; rfl)
        refine inv.putEvents (inv.events.lock free known) RowStore.rows_lock
          (fun _ other => RowStore.keeps_lock other free)
          ⟨fun l held absent => ?_, noOutbox, RowStore.holder_lock_self⟩
        rcases eq_or_ne l webhookEventId with rfl | other
        · rw [RowStore.view_of_not_held (noEvents l)] at seen
          change (s.events.lock i l).rows l = none at absent
          rw [RowStore.rows_lock, seen] at absent
          cases absent
        · exact noEvents l ((RowStore.holder_lock_ne other).symm.trans held)
      · exact inv.rollback rfl
  | updating webhookEventId now =>
    obtain ⟨only, noOutbox, held⟩ := holds
    simp only [System.advance] at advances
    split at advances <;> cases advances
    next => exact inv.goto ⟨fun l mine absent => (only l mine absent).elim, noOutbox⟩
    next event seen =>
      have free : s.events.Free i webhookEventId := .inr held
      refine inv.putEvents (inv.events.rewrite free seen ⟨rfl, rfl⟩) RowStore.rows_write
        (fun _ other => RowStore.keeps_write other free) ⟨fun l mine absent => ?_, noOutbox⟩
      by_contra other
      exact only l ((RowStore.holder_write_ne other).symm.trans mine) absent
  | rereading webhookEventId =>
    simp only [System.advance] at advances
    split at advances <;> cases advances <;> exact inv.goto holds
  | processing webhookEventId handling =>
    simp only [System.advance] at advances
    split at advances
    next =>
      cases advances
      exact inv.goto holds
    next => split_ifs at advances <;> cases advances <;> exact inv.goto holds
  | finishing webhookEventId attempts handling =>
    simp only [System.advance] at advances
    split_ifs at advances with free
    split at advances <;> cases advances
    next => exact inv.goto holds
    next event seen =>
      refine inv.autocommit holds.1 free seen ?_
      cases handling <;> exact ⟨rfl, rfl⟩
  | recording events now =>
    cases events <;> cases advances
    exact inv.goto (StoresOnly.of_noEvents holds)
  | claiming now candidates events =>
    cases candidates with
    | nil =>
      cases advances
      exact inv.goto ⟨holds.1, holds.2.1, List.Subset.refl _⟩
    | cons id candidates =>
      simp only [System.advance] at advances
      split_ifs at advances <;> cases advances
      · exact inv.goto ⟨holds.1, holds.2.1, List.Subset.refl _⟩
      · exact inv.claim holds
  | publishing events remaining published =>
    cases remaining <;> cases advances
    exact inv.goto (StoresOnly.of_noEvents holds.1)
  | marking events id event remaining published =>
    exact inv.markPublished holds.1 holds.2 advances
      fun s' relays _ => relays.mono (List.subset_cons_self ..)
  | failing events id event error remaining published =>
    refine inv.update holds (fun row => jobOf_markFailed id row event error date) ?_ advances
      fun s' relays _ => relays.mono (List.subset_cons_self ..)
    intro row seen _ marked
    exact inv.outbox.published id row (RowStore.shows_of_view seen) marked
  | deleting now candidates affected =>
    cases candidates <;> cases advances
    exact inv.goto (StoresOnly.of_noEvents holds.1)

theorem Inv.begin (inv : s.Inv) (noEvents : s.NoEvents i) (noOutbox : s.NoOutbox i)
    (gateway : Gateway β η) (now : Nat) (request : Request β η) :
    s.Next (s.begin gateway i now request) := by
  cases request with
  | receive providerName rawBody headers =>
    simp only [System.begin]
    split <;> exact inv.goto ⟨noEvents, noOutbox⟩
  | replay webhookEventId => exact inv.goto ⟨noEvents, noOutbox⟩
  | process webhookEventId handling => exact inv.goto ⟨noEvents, noOutbox⟩
  | record events => exact inv.goto noEvents
  | tick => exact inv.goto ⟨noEvents, by simp, List.nil_subset _⟩
  | cleanup => exact inv.goto ⟨noEvents, fun id held => (noOutbox id held).elim⟩

theorem holds_ended (ended : pc.ended = true) (holds : pc.Holds s i) :
    s.NoEvents i ∧ s.NoOutbox i := by
  cases pc with
  | returned | threw | crashed => exact holds
  | _ => cases ended

theorem Inv.call (inv : s.Inv) {gateway : Gateway β η} {now : Nat} {request : Request β η}
    (calls : s.call gateway i now request = some s') : s.Next s' := by
  unfold System.call at calls
  cases here : s.calls i with
  | none =>
    rw [here] at calls
    cases calls
    obtain ⟨noEvents, noOutbox⟩ := inv.idle i here
    exact inv.begin noEvents noOutbox gateway now request
  | some pc =>
    rw [here] at calls
    by_cases ended : pc.ended = true
    · obtain ⟨noEvents, noOutbox⟩ := holds_ended ended (inv.calls i pc here)
      have begins : s' = s.begin gateway i now request := by
        cases request <;> simpa [ended] using calls.symm
      rw [begins]
      exact inv.begin noEvents noOutbox gateway now request
    · cases request with
      | tick =>
        -- it is the tick that runs
        simp only [ended, Bool.false_eq_true, if_false] at calls
        split_ifs at calls
        cases calls
        exact .of_rows inv rfl rfl (List.Subset.refl _)
      | _ => simp [ended] at calls

theorem Inv.fail (inv : s.Inv) (here : s.calls i = some pc) {message : String}
    (fails : s.fail i message pc = some s') : s.Next s' := by
  have holds := inv.calls i pc here
  unfold System.fail at fails
  split at fails <;> try cases fails
  next => exact inv.goto holds
  next => split_ifs at fails <;> cases fails <;> exact inv.rollback rfl

theorem Inv.step (inv : s.Inv) {gateway : Gateway β η} {action : Action β η ι}
    (stepped : step gateway action s = some s') : s.Next s' := by
  cases action with
  | call i now request => exact inv.call stepped
  | insert i id =>
    obtain ⟨pc, here, inserts⟩ := Option.bind_eq_some_iff.mp stepped
    exact inv.insertNext here inserts
  | advance i date =>
    obtain ⟨pc, here, advances⟩ := Option.bind_eq_some_iff.mp stepped
    exact inv.advance here advances
  | publish i answer =>
    obtain ⟨pc, here, publishes⟩ := Option.bind_eq_some_iff.mp stepped
    exact inv.publish here publishes
  | updateThrows i date executed error =>
    obtain ⟨pc, here, throws⟩ := Option.bind_eq_some_iff.mp stepped
    exact inv.updateThrows here throws
  | delete i id =>
    obtain ⟨pc, here, deletes⟩ := Option.bind_eq_some_iff.mp stepped
    exact inv.delete here deletes
  | fail i message =>
    obtain ⟨pc, here, fails⟩ := Option.bind_eq_some_iff.mp stepped
    exact inv.fail here fails
  | crash i =>
    obtain ⟨pc, here, rfl⟩ := Option.map_eq_some_iff.mp stepped
    exact inv.rollback rfl

theorem Inv.start : (start : System ι).Inv where
  events := ⟨fun _ _ => .start, fun _ _ => ⟨rfl, rfl⟩, .start Stays.refl _⟩
  outbox := ⟨fun _ _ => ⟨rfl, rfl⟩, .start, .start Revises.refl _⟩
  idle := by simp [System.start, RowStore.start, NoEvents, NoOutbox]
  calls := by simp [System.start]

/-! ## Main results -/

/-- No two rows are the same event of the same provider. -/
def StoredOnce (s : System ι) : Prop :=
  ∀ id id' event event', s.events.rows id = some event → s.events.rows id' = some event' →
    event.provider = event'.provider → event.eventId = event'.eventId → id = id'

/-- What is marked as published, committed or not, the queue has got. -/
def MarkedAfterPublish (s : System ι) : Prop :=
  ∀ id event, s.outbox.Shows id event → event.status = .published → jobOf id event ∈ s.jobs

/-- The event is still to be published, or the queue has got it. -/
def Kept (s : System ι) (id : Uuid) (event : Outbox.OutboxEvent) : Prop :=
  (∃ row, s.outbox.rows id = some row ∧ row.status = .pending ∧ jobOf id row = jobOf id event) ∨
    jobOf id event ∈ s.jobs

/-- No event is in the batches of two relays. -/
def Exclusive (s : System ι) : Prop :=
  ∀ i j pc pc', i ≠ j → s.calls i = some pc → s.calls j = some pc' →
    List.Disjoint (pc.batch.map Prod.fst) (pc'.batch.map Prod.fst)

theorem holds_batch {selected : Uuid × Outbox.OutboxEvent} (holds : pc.Holds s i)
    (member : selected ∈ pc.batch) : s.outbox.holder selected.1 = some i := by
  cases pc with
  | claiming now candidates events => exact (holds.2.1 selected member).1
  | publishing events remaining published => exact (holds.2.1 selected member).1
  | marking events id event remaining published => exact (holds.1.2.1 selected member).1
  | failing events id event error remaining published => exact (holds.2.1 selected member).1
  | _ => cases member

theorem Inv.exclusive (inv : s.Inv) : s.Exclusive := by
  intro i j pc pc' other here there id mine theirs
  obtain ⟨selected, member, rfl⟩ := List.mem_map.mp mine
  obtain ⟨selected', member', same⟩ := List.mem_map.mp theirs
  have held := holds_batch (inv.calls i pc here) member
  have held' := holds_batch (inv.calls j pc' there) member'
  rw [same, held] at held'
  exact other (Option.some.inj held')

theorem Inv.storedOnce (inv : s.Inv) : s.StoredOnce := by
  intro id id' event event' stored stored' provider eventId
  apply (inv.events.one event.provider event.eventId).rows id id'
  · simp [stored, WebhookEvent.HasKey]
  · simp [stored', WebhookEvent.HasKey, provider, eventId]

/-- A step keeps what it does not publish. -/
theorem Next.kept (next : s.Next s') {event : Outbox.OutboxEvent} (kept : s.Kept id event) :
    s'.Kept id event := by
  rcases kept with ⟨row, committed, pending, same⟩ | queued
  · have revises := next.revises id
    rw [committed] at revises
    cases after : s'.outbox.rows id with
    | none =>
      rw [after] at revises
      have marked : row.status = .published := revises
      rw [pending] at marked
      cases marked
    | some row' =>
      rw [after] at revises
      have same' : jobOf id row' = jobOf id row := revises
      cases status : row'.status with
      | pending => exact .inl ⟨row', after, status, same'.trans same⟩
      | published =>
        have queued := next.inv.outbox.published id row' (.inl after) status
        rw [same', same] at queued
        exact .inr queued
  · exact .inr (next.jobs queued)

variable {gateway : Gateway β η}

theorem Inv.reaches (inv : s.Inv) (run : Reaches gateway s s') : s'.Inv :=
  run.invariant Inv (fun _ _ _ inv _ stepped => (inv.step stepped).inv) inv

/-- Whatever happens afterwards, a committed event is kept. -/
theorem Inv.kept (inv : s.Inv) {event : Outbox.OutboxEvent} (committed : s.outbox.rows id = some event)
    (run : Reaches gateway s s') : s'.Kept id event := by
  have now : s.Kept id event := by
    cases status : event.status with
    | pending => exact .inl ⟨event, committed, status, rfl⟩
    | published => exact .inr (inv.outbox.published id event (.inl committed) status)
  refine (run.invariant (fun m => m.Inv ∧ m.Kept id event) ?_ ⟨inv, now⟩).2
  rintro _ m m' ⟨before, kept⟩ _ stepped
  have next := before.step stepped
  exact ⟨next.inv, next.kept kept⟩

theorem Inv.stays (inv : s.Inv) (run : Reaches gateway s s') :
    ∀ id, Stays id (s.events.rows id) (s'.events.rows id) := by
  refine (run.invariant
    (fun m => m.Inv ∧ ∀ id, Stays id (s.events.rows id) (m.events.rows id)) ?_
      ⟨inv, fun id => Stays.refl id _⟩).2
  rintro _ m m' ⟨before, stays⟩ _ stepped
  have next := before.step stepped
  exact ⟨next.inv, fun id => (stays id).trans (next.stays id)⟩

/-- A stored webhook event was stored by a step that stored its command. -/
theorem scheduled (run : Reaches gateway start s) (stored : (s.events.rows id).isSome) :
    ∃ m m', Reaches gateway start m ∧ Schedule.Step (step gateway) Schedule.Any m m' ∧
      Reaches gateway m' s ∧ m.Schedules m' id := by
  obtain ⟨m, m', before, stepped, after, absent, present⟩ :=
    run.became (P := fun m => (m.events.rows id).isSome) (fun there => by cases there) stored
  refine ⟨m, m', before, stepped, after, ?_⟩
  obtain ⟨action, -, moved⟩ := stepped
  exact ((Inv.start.reaches before).step moved).stores id
    (by simpa using absent) present

def paid : ProviderWebhookEvent := ⟨"evt_1", "payment.succeeded", "charge.success", some "ref_1"⟩

/-- Accepts every body as the same event. -/
def trusting : Gateway Unit Unit where
  providers _ := some ⟨fun _ _ => .ok true, fun _ => some paid⟩
  parseJson _ := some (.object [])

end System

end Finstack.Webhooks
