import Finstack.Model.Webhooks.Matching

/-! # Webhooks about payments find them

A payment carries the provider's reference only once an answer to one of its requests was stored,
and it is by that reference that an event finds it. So what a provider notifies of is matched, and
with its own payment, in runs in which every event is handed out after such an answer was stored.
-/

namespace Finstack.Webhooks.Matching

open Foundation Services PaymentProviders
open scoped Schedule

variable {naming : Naming}

/-! ## Rows stay -/

/-- The payment is there, whatever else has become of it. -/
def PaymentAt (payments : Table Payment) (id : Uuid) (provider reference : String) : Prop :=
  ∃ row, payments.find? id = some row ∧ row.provider = provider ∧ row.reference = reference

/-- The event is there, as it was received. -/
def EventAt (events : Table Event) (event : Event) : Prop :=
  ∃ row, events.find? event.id = some row ∧ row.toNotification = event.toNotification

section

variable {payments : Table Payment} {events : Table Event} {id id' : Uuid}
  {provider reference : String} {event row : Event} {payment : Payment}

theorem PaymentAt.insert (there : PaymentAt payments id provider reference) :
    PaymentAt (payments.insert payment) id provider reference := by
  obtain ⟨row, found, same⟩ := there
  exact ⟨row, Table.find?_insert_of_some found, same⟩

theorem PaymentAt.modify {change : Payment → Payment} (there : PaymentAt payments id provider reference)
    (keeps : ∀ row, (change row).id = row.id ∧ (change row).provider = row.provider ∧
      (change row).reference = row.reference) :
    PaymentAt (payments.modify id' change) id provider reference := by
  obtain ⟨row, found, same_provider, same_reference⟩ := there
  unfold PaymentAt
  rw [Table.find?_modify fun row => (keeps row).1, found]
  split_ifs
  · exact ⟨change row, rfl, (keeps row).2.1.trans same_provider, (keeps row).2.2.trans same_reference⟩
  · exact ⟨row, rfl, same_provider, same_reference⟩

theorem EventAt.insert (there : EventAt events event) : EventAt (events.insert row) event := by
  obtain ⟨found, present, same⟩ := there
  exact ⟨found, Table.find?_insert_of_some present, same⟩

theorem EventAt.modify {change : Event → Event} (there : EventAt events event)
    (keeps : ∀ row, (change row).id = row.id ∧ (change row).toNotification = row.toNotification) :
    EventAt (events.modify id' change) event := by
  obtain ⟨row, found, same⟩ := there
  unfold EventAt
  rw [Table.find?_modify fun row => (keeps row).1, found]
  split_ifs
  · exact ⟨change row, rfl, (keeps row).2.trans same⟩
  · exact ⟨row, rfl, same⟩

theorem paymentAt_of_mem (member : payment ∈ payments) :
    PaymentAt payments payment.id payment.provider payment.reference :=
  ⟨payment, Table.find?_of_mem member, rfl, rfl⟩

theorem eventAt_of_mem (member : event ∈ events) : EventAt events event :=
  ⟨event, Table.find?_of_mem member, rfl⟩

end

/-! ## What runs may do -/

/-- A payment event that gives back the reference of a payment. -/
def Notification.About (notification : Notification) : Prop :=
  notification.type.isPayment = true ∧ notification.reference.isSome = true

namespace System

variable {ι : Type} {s s' : System ι}

/-- The payment that an event is about carries the provider's reference. -/
def Answered (s : System ι) (event : Event) : Prop :=
  event.type.isPayment = true → ∀ payment ∈ s.payments.rows, payment.provider = event.provider →
    event.reference = some payment.reference → payment.providerReference.isSome = true

def MayAdvance (s : System ι) : Pc → Prop
  | .dispatch event => s.Answered event
  | _ => True

/-- Events are handed out when their payments have been answered. -/
def Orderly : Action ι → System ι → Prop
  | .advance i, s => ∀ pc ∈ s.calls i, s.MayAdvance pc
  | _, _ => True

section

variable (s : System ι)

instance (event : Event) : Decidable (s.Answered event) :=
  inferInstanceAs (Decidable (_ → ∀ payment ∈ s.payments.rows, _ → _ → _))

instance : ∀ pc, Decidable (s.MayAdvance pc)
  | .dispatch event => inferInstanceAs (Decidable (s.Answered event))
  | .view _ | .requested _ _ | .store _ _ _ | .reject _ | .viewAgain _ | .answered _ | .findEvent _
  | .syncRefunds _ | .syncPayout _ | .settle _ _ | .finish _ _ | .processed _ | .threw _ =>
    .isTrue trivial

instance : ∀ (a : Action ι) (s : System ι), Decidable (Orderly a s)
  | .advance i, s => inferInstanceAs (Decidable (∀ pc ∈ s.calls i, s.MayAdvance pc))
  | .initializePayment _ _ _ _, _ | .retry _ _, _ | .accept _ _, _ | .respond _ _, _
  | .transition _ _, _ | .receive _ _, _ | .process _ _, _ | .answer _ _, _ | .replay _, _
  | .fail _ _, _ => .isTrue trivial

end

/-- No event that gives back the reference of a payment was finished as one that matches none, and
whatever such an event is settled with is the payment it is about. -/
structure Matched (s : System ι) : Prop where
  finished : ∀ event ∈ s.events, event.type.isPayment = true → ∀ payment ∈ s.payments,
    event.provider = payment.provider → event.reference = some payment.reference →
      ¬ (event.status = .ignored ∧ event.outcome = some "no_matching_payment")
  settled : ∀ i event payment, s.calls i = some (.settle event payment) →
    ∀ reference ∈ event.reference,
      payment.provider = event.provider ∧ payment.reference = reference

end System

/-! ## The invariant -/

/-- What a call has read is there, and is what the providers call it. -/
def Pc.Known (naming : Naming) (payments : Table Payment) (events : Table Event) : Pc → Prop
  | .view payment => PaymentAt payments payment.id payment.provider payment.reference
  | .requested payment reference =>
    PaymentAt payments payment.id payment.provider payment.reference ∧ reference = payment.reference
  | .store payment providerReference _ =>
    PaymentAt payments payment.id payment.provider payment.reference ∧
      providerReference = naming.providerReference payment.provider payment.reference
  | .dispatch event | .syncRefunds event | .syncPayout event => EventAt events event
  | .settle event payment => EventAt events event ∧ ∀ reference ∈ event.reference,
      payment.provider = event.provider ∧ payment.reference = reference
  | .finish event handling => EventAt events event ∧
    (event.About → handling ≠ .finished true "no_matching_payment")
  | .reject _ | .viewAgain _ | .answered _ | .findEvent _ | .processed _ | .threw _ => True

theorem Pc.Known.later {pc : Pc} {payments payments' : Table Payment} {events events' : Table Event}
    (known : pc.Known naming payments events)
    (keeps : ∀ id provider reference, PaymentAt payments id provider reference →
      PaymentAt payments' id provider reference)
    (keeps' : ∀ event, EventAt events event → EventAt events' event) :
    pc.Known naming payments' events' := by
  cases pc with
  | view payment => exact keeps _ _ _ known
  | requested payment reference => exact ⟨keeps _ _ _ known.1, known.2⟩
  | store payment providerReference authorizationUrl => exact ⟨keeps _ _ _ known.1, known.2⟩
  | dispatch event => exact keeps' _ known
  | syncRefunds event => exact keeps' _ known
  | syncPayout event => exact keeps' _ known
  | settle event payment => exact ⟨keeps' _ known.1, known.2⟩
  | finish event handling => exact ⟨keeps' _ known.1, known.2⟩
  | reject | viewAgain | answered | findEvent | processed | threw => trivial

/-- The event was not finished as one that matches no payment. -/
def Event.NotLost (event : Event) : Prop :=
  event.About → ¬ (event.status = .ignored ∧ event.outcome = some "no_matching_payment")

theorem Event.NotLost.handled {event : Event} {attempts : Nat} {handling : Handling}
    (other : event.About → handling ≠ .finished true "no_matching_payment") :
    (event.handled attempts handling).NotLost := by
  cases handling with
  | finished ignored outcome =>
    rintro about ⟨status, same⟩
    cases ignored with
    | false => cases status
    | true =>
      have same : outcome = "no_matching_payment" := Option.some.inj same
      exact other about (by rw [same])
  | threw message =>
    rintro - ⟨status, -⟩
    cases status

/-- What a service returns is never that no payment matches. -/
theorem Answer.handling_ne (answer : Answer) :
    answer.handling ≠ .finished true "no_matching_payment" := by
  rcases answer with result | found | outcome
  · cases result <;> decide
  · cases found <;> decide
  · intro same
    cases same

namespace System

variable {ι : Type} {s s' : System ι}

structure Inv (naming : Naming) (s : System ι) : Prop where
  named : ∀ payment ∈ s.payments, ∀ providerReference ∈ payment.providerReference,
    providerReference = naming.providerReference payment.provider payment.reference
  requests : ∀ request ∈ s.requests, ∃ id, PaymentAt s.payments id request.1 request.2
  checkouts : ∀ checkout ∈ s.checkouts, checkout ∈ s.requests
  events : ∀ event ∈ s.events, ∀ reference ∈ event.reference,
    event.providerReference = some (naming.providerReference event.provider reference) ∧
      ∃ id, PaymentAt s.payments id event.provider reference
  notLost : ∀ event ∈ s.events, event.NotLost
  calls : ∀ i, ∀ pc ∈ s.calls i, pc.Known naming s.payments s.events

theorem Inv.start : (start : System ι).Inv naming where
  named _ none := nomatch none
  requests _ none := nomatch none
  checkouts _ none := nomatch none
  events _ none := nomatch none
  notLost _ none := nomatch none
  calls _ _ none := nomatch none

section

variable (inv : s.Inv naming)
include inv

theorem Inv.matched : s.Matched where
  finished event member payments payment _ _ about :=
    inv.notLost event member ⟨payments, by simp [about]⟩
  settled i event payment there := (inv.calls i _ there).2

/-- What became of the payments leaves them what they are. -/
theorem Inv.payments {payments : Table Payment}
    (keeps : ∀ id provider reference, PaymentAt s.payments id provider reference →
      PaymentAt payments id provider reference)
    (named : ∀ payment ∈ payments, ∀ providerReference ∈ payment.providerReference,
      providerReference = naming.providerReference payment.provider payment.reference) :
    ({ s with payments } : System ι).Inv naming where
  named := named
  requests request member := (inv.requests request member).imp fun id => keeps id _ _
  checkouts := inv.checkouts
  events event member reference about :=
    (inv.events event member reference about).imp_right fun there => there.imp fun id => keeps id _ _
  notLost := inv.notLost
  calls i pc there := (inv.calls i pc there).later keeps fun _ => id

/-- What became of the events leaves them what they are about. -/
theorem Inv.updateEvent {id : Uuid} {change : Event → Event}
    (keeps : ∀ row, (change row).id = row.id ∧ (change row).toNotification = row.toNotification)
    (notLost : ∀ row ∈ s.events, row.id = id → (change row).NotLost) :
    (s.updateEvent id change).Inv naming where
  named := inv.named
  requests := inv.requests
  checkouts := inv.checkouts
  events := by
    refine Table.forall_mem_modify (fun row => (keeps row).1) inv.events fun row member _ => ?_
    rw [(keeps row).2]
    exact inv.events row member
  notLost := Table.forall_mem_modify (fun row => (keeps row).1) inv.notLost notLost
  calls i pc there :=
    (inv.calls i pc there).later (fun _ _ _ there => there) fun _ there => there.modify keeps

theorem Inv.receive {id : Uuid} {notification : Notification}
    (genuine : s.Genuine naming notification) (fresh : s.events.find? id = none) :
    (s.receive id notification).Inv naming := by
  unfold System.receive
  split_ifs
  · exact inv
  · have rows : ∀ {event : Event}, event ∈ s.events.insert { notification with id } ↔
        event ∈ s.events ∨ event = { notification with id } := Table.mem_insert fresh
    refine { inv with
      events := fun event member reference about => ?_
      notLost := fun event member => ?_
      calls := fun i pc there =>
        (inv.calls i pc there).later (fun _ _ _ there => there) fun _ there => there.insert }
    · rcases rows.mp member with earlier | rfl
      · exact inv.events event earlier reference about
      · obtain ⟨accepted, named⟩ := genuine reference about
        exact ⟨named, inv.requests _ (inv.checkouts _ accepted)⟩
    · rcases rows.mp member with earlier | rfl
      · exact inv.notLost event earlier
      · rintro - ⟨status, -⟩
        cases status

/-- A payment is written for the sake of something else. -/
theorem Inv.updatePayment {id : Uuid} {change : Payment → Payment}
    (keeps : ∀ row, (change row).id = row.id ∧ (change row).provider = row.provider ∧
      (change row).reference = row.reference)
    (named : ∀ row ∈ s.payments, row.id = id → ∀ providerReference ∈ (change row).providerReference,
      providerReference = naming.providerReference row.provider row.reference) :
    (s.updatePayment id change).Inv naming := by
  refine inv.payments (fun _ _ _ there => there.modify keeps) ?_
  refine Table.forall_mem_modify (fun row => (keeps row).1) inv.named fun row member own => ?_
  rw [(keeps row).2.1, (keeps row).2.2]
  exact named row member own

/-- A request is sent for a payment that is there. -/
theorem Inv.send {id : Uuid} {provider reference : String}
    (there : PaymentAt s.payments id provider reference) :
    ({ s with requests := (provider, reference) :: s.requests } : System ι).Inv naming :=
  { inv with
    requests := List.forall_mem_cons.mpr ⟨⟨id, there⟩, inv.requests⟩
    checkouts := fun checkout member => List.mem_cons_of_mem _ (inv.checkouts checkout member) }

/-! ## Handing an event out -/

/-- The payment that an event is about is found, once it carries the provider's reference. -/
theorem Inv.found {event : Event} (known : EventAt s.events event) (answered : s.Answered event)
    (about : event.About) : truthy event.providerReference = true ∧
      (s.findByProviderReference event.provider event.providerReference).isSome = true := by
  obtain ⟨row, present, same⟩ := known
  obtain ⟨payments, given⟩ := about
  obtain ⟨reference, given⟩ := Option.isSome_iff_exists.mp given
  obtain ⟨named, id, payment, stored, provider, rfl⟩ :=
    inv.events row (Table.find?_some present).1 reference (same ▸ given)
  rw [same] at named provider
  have member := (Table.find?_some stored).1
  obtain ⟨carried, carries⟩ :=
    Option.isSome_iff_exists.mp (answered payments payment member provider given)
  have right := inv.named payment member carried carries
  constructor
  · simp [truthy, named, naming.nonempty]
  · rw [findByProviderReference, List.find?_isSome]
    refine ⟨payment, member, ?_⟩
    simp [provider, named, carries, right]

/-- Whatever an event finds is the payment it is about. -/
theorem Inv.own {event : Event} {payment : Payment} (known : EventAt s.events event)
    (found : s.findByProviderReference event.provider event.providerReference = some payment) :
    ∀ reference ∈ event.reference,
      payment.provider = event.provider ∧ payment.reference = reference := by
  obtain ⟨row, present, same⟩ := known
  intro reference given
  obtain ⟨named, -⟩ := inv.events row (Table.find?_some present).1 reference (same ▸ given)
  rw [same] at named
  have matches_ := List.find?_some found
  rw [decide_eq_true_eq] at matches_
  have right := inv.named payment (List.mem_of_find?_eq_some found) _ (matches_.2.trans named)
  rw [matches_.1] at right
  exact ⟨matches_.1, (naming.injective _ _ _ right).symm⟩

end

variable [DecidableEq ι] {i : ι}

section

variable (inv : s.Inv naming)
include inv

theorem Inv.goto {pc : Pc} (known : pc.Known naming s.payments s.events) :
    (s.goto i pc).Inv naming where
  __ := inv
  calls j other there := by
    by_cases same : j = i
    · subst same
      obtain rfl : pc = other := by simpa [System.goto] using there
      exact known
    · exact inv.calls j other (by simpa [System.goto, same] using there)

theorem Inv.dispatch {event : Event} (known : EventAt s.events event)
    (answered : s.Answered event) : (s.dispatch i event).Inv naming := by
  unfold System.dispatch
  split_ifs with refund payout unknown payment
  · exact inv.goto known
  · exact inv.goto known
  · exact inv.goto ⟨known, fun about => absurd about.1 (by rw [unknown]; decide)⟩
  · cases found : s.findByProviderReference event.provider event.providerReference with
    | none =>
      refine inv.goto ⟨known, fun about => ?_⟩
      have there := (inv.found known answered about).2
      rw [found] at there
      cases there
    | some payment => exact inv.goto ⟨known, inv.own known found⟩
  · refine inv.goto ⟨known, fun about => ?_⟩
    exact absurd ⟨about.1, (inv.found known answered about).1⟩ payment

/-! ## Steps and runs -/

theorem Inv.advance {pc : Pc} (there : s.calls i = some pc) (may : s.MayAdvance pc)
    (advanced : s.advance i pc = some s') : s'.Inv naming := by
  have known := inv.calls i pc there
  unfold System.advance at advanced
  cases pc with
  | view payment =>
    simp only at advanced
    split at advanced
    · cases advanced
      exact inv.goto trivial
    · next current found =>
      split_ifs at advanced <;> cases advanced
      · exact inv.goto trivial
      · obtain ⟨row, present, provider, reference⟩ := known
        obtain rfl := Option.mem_unique found present
        have there : PaymentAt s.payments payment.id payment.provider current.reference :=
          ⟨current, found, provider, rfl⟩
        exact (inv.send there).goto ⟨reference ▸ there, reference⟩
  | store payment providerReference authorizationUrl =>
    simp only at advanced
    split_ifs at advanced <;> cases advanced
    · exact inv.goto trivial
    · refine Inv.goto (inv.updatePayment ?_ fun row member own => ?_) trivial
      · exact fun _ => ⟨rfl, rfl, rfl⟩
      obtain ⟨⟨found, present, provider, reference⟩, named⟩ := known
      obtain rfl : row = found := Option.mem_unique (own ▸ Table.find?_of_mem member) present
      intro other stored
      obtain rfl : providerReference = other := Option.some.inj stored
      rw [provider, reference]
      exact named
  | reject payment =>
    simp only at advanced
    split at advanced
    · cases advanced
      exact inv.goto trivial
    · split at advanced <;> cases advanced
      · exact inv.goto trivial
      · refine Inv.goto (inv.updatePayment ?_ fun row member _ => ?_) trivial
        · exact fun _ => ⟨rfl, rfl, rfl⟩
        · exact inv.named row member
  | viewAgain id =>
    simp only at advanced
    split at advanced <;> cases advanced
    · exact inv.goto trivial
    · exact inv.goto trivial
  | findEvent id =>
    simp only at advanced
    split at advanced
    · cases advanced
      exact inv.goto trivial
    · next event found =>
      split_ifs at advanced <;> cases advanced
      · exact inv.goto trivial
      · exact inv.goto (eventAt_of_mem (Table.find?_some found).1)
  | dispatch event =>
    cases advanced
    exact inv.dispatch known may
  | finish event handling =>
    cases advanced
    obtain ⟨⟨found, present, same⟩, other⟩ := known
    refine (inv.updateEvent (fun row => ?_) fun row member own => ?_).goto trivial
    · cases handling with
      | finished ignored outcome => exact ⟨rfl, rfl⟩
      | threw message => exact ⟨rfl, rfl⟩
    · obtain rfl : row = found := Option.mem_unique (own ▸ Table.find?_of_mem member) present
      refine Event.NotLost.handled fun about => other ?_
      rwa [same] at about
  | requested | answered | syncRefunds | syncPayout | settle | processed | threw => cases advanced

theorem Inv.respond {pc : Pc} {result : Except Thrown String} (there : s.calls i = some pc)
    (responded : s.respond naming i result pc = some s') : s'.Inv naming := by
  have known := inv.calls i pc there
  unfold System.respond at responded
  split at responded
  · next payment reference =>
    split at responded
    · split_ifs at responded
      cases responded
      exact inv.goto ⟨known.1, by rw [known.2]⟩
    · split_ifs at responded <;> cases responded
      · exact inv.goto trivial
      · exact inv.goto trivial
  · cases responded

theorem Inv.answer {pc : Pc} {answer : Answer} (there : s.calls i = some pc)
    (answered : s.answer i answer pc = some s') : s'.Inv naming := by
  have known := inv.calls i pc there
  unfold System.answer at answered
  split at answered
  · split at answered <;> cases answered
    exact inv.goto ⟨known, fun _ => Answer.handling_ne _⟩
  · split at answered <;> cases answered
    exact inv.goto ⟨known, fun _ => Answer.handling_ne _⟩
  · split at answered <;> cases answered
    exact inv.goto ⟨known.1, fun _ => Answer.handling_ne _⟩
  · cases answered

theorem Inv.fail {pc : Pc} {message : String} (there : s.calls i = some pc)
    (failed : s.fail i message pc = some s') : s'.Inv naming := by
  have known := inv.calls i pc there
  cases pc with
  | dispatch event | syncRefunds event | syncPayout event =>
    cases failed
    exact inv.goto ⟨known, nofun⟩
  | settle event payment =>
    cases failed
    exact inv.goto ⟨known.1, nofun⟩
  | finish event handling =>
    cases handling <;> cases failed
    · exact inv.goto ⟨known.1, nofun⟩
    · exact inv.goto trivial
  | view | store | reject | viewAgain | findEvent =>
    cases failed
    exact inv.goto trivial
  | requested | answered | processed | threw => cases failed

theorem Inv.step {a : Action ι} (orderly : Orderly a s) (stepped : step naming a s = some s') :
    s'.Inv naming := by
  cases a with
  | initializePayment i id provider reference =>
    simp only [System.step] at stepped
    split_ifs at stepped with unused
    cases stepped
    have rows : ∀ {payment : Payment}, payment ∈ s.payments.insert { id, provider, reference } ↔
        payment ∈ s.payments ∨ payment = { id, provider, reference } :=
      Table.mem_insert unused.2.1
    refine (inv.payments (fun _ _ _ there => there.insert) fun payment member => ?_).goto
      (paymentAt_of_mem (rows.mpr (.inr rfl)))
    rcases rows.mp member with earlier | rfl
    · exact inv.named payment earlier
    · exact nofun
  | retry i id =>
    simp only [System.step] at stepped
    split_ifs at stepped
    obtain ⟨payment, found, rfl⟩ := Option.map_eq_some_iff.mp stepped
    exact inv.goto (paymentAt_of_mem (Table.find?_some found).1)
  | advance i =>
    obtain ⟨pc, there, advanced⟩ := Option.bind_eq_some_iff.mp stepped
    exact inv.advance there (orderly pc there) advanced
  | accept provider reference =>
    simp only [System.step] at stepped
    split_ifs at stepped with sent
    cases stepped
    exact { inv with checkouts := List.forall_mem_cons.mpr ⟨sent, inv.checkouts⟩ }
  | respond i result =>
    obtain ⟨pc, there, responded⟩ := Option.bind_eq_some_iff.mp stepped
    exact inv.respond there responded
  | transition id status =>
    cases stepped
    exact inv.updatePayment (fun _ => ⟨rfl, rfl, rfl⟩) fun row member _ => inv.named row member
  | receive id notification =>
    simp only [System.step] at stepped
    split_ifs at stepped with genuine
    cases stepped
    exact inv.receive genuine.1 genuine.2
  | process i id =>
    simp only [System.step] at stepped
    split_ifs at stepped
    cases stepped
    exact inv.goto trivial
  | answer i answer =>
    obtain ⟨pc, there, answered⟩ := Option.bind_eq_some_iff.mp stepped
    exact inv.answer there answered
  | replay id =>
    simp only [System.step] at stepped
    split at stepped
    · cases stepped
    · split_ifs at stepped
      cases stepped
      refine inv.updateEvent (fun _ => ⟨rfl, rfl⟩) fun row _ _ => ?_
      rintro - ⟨status, -⟩
      cases status
  | fail i message =>
    obtain ⟨pc, there, failed⟩ := Option.bind_eq_some_iff.mp stepped
    exact inv.fail there failed

end

/-- In every orderly run, no webhook about a payment is finished as one that matches none. -/
theorem matched_of_orderly (reaches : Reaches naming Orderly start s) : s.Matched :=
  (reaches.invariant (Inv naming) (fun _ _ _ inv orderly stepped => inv.step orderly stepped)
    .start).matched

/-! ## Runs -/

/-- Some event was finished as one that matches no payment, and gives back the reference of one. -/
def lost (s : System ι) : Bool :=
  s.events.rows.any fun event => event.type.isPayment ∧ event.status = .ignored ∧
    event.outcome = some "no_matching_payment" ∧ s.payments.rows.any fun payment =>
      event.provider = payment.provider ∧ event.reference = some payment.reference

omit [DecidableEq ι] in
theorem Matched.not_lost (matched : s.Matched) : s.lost = false := by
  rw [lost, List.any_eq_false]
  intro event member
  simp only [decide_eq_true_eq, List.any_eq_true]
  rintro ⟨payments, status, outcome, payment, there, provider, reference⟩
  exact matched.finished event member payments payment there provider reference ⟨status, outcome⟩

end System

/-- Sessions named after the reference. -/
def sessions : Naming where
  providerReference _ reference := "cs_" ++ reference
  injective _ reference reference' same := by
    have texts := congrArg String.toList same
    rw [String.toList_append, String.toList_append] at texts
    exact String.toList_inj.mp (List.append_cancel_left texts)
  nonempty _ reference empty := by
    have texts := congrArg String.toList empty
    rw [String.toList_append] at texts
    cases texts

namespace System

/-- A request that the provider accepts, up to its answer. -/
def asking (i : Fin 3) : List (Action (Fin 3)) := [.advance i, .accept "stripe" "trx_1"]

def answering (i : Fin 3) : List (Action (Fin 3)) :=
  [.respond i (.ok "https://checkout.stripe.com/1"), .advance i, .advance i]

/-- The customer has paid, the provider notifies, and the event is handed out. -/
def notifying (i : Fin 3) : List (Action (Fin 3)) :=
  [.receive 7 ⟨"stripe", "evt_1", .paymentSucceeded, some "cs_trx_1", some "trx_1"⟩, .process i 7,
    .advance i, .advance i]

/-- The answer is lost, a retry stores it, and the provider notifies. -/
theorem matched_after_retry : ∃ s : System (Fin 3), Reaches sessions Orderly start s ∧ s.Matched ∧
    (s.events.rows.map fun event => (event.status, event.outcome)) =
      [(.processed, some "credited")] := by
  have ran : ∃ s ∈ Schedule.run (step sessions) Orderly
      (.initializePayment 0 1 "stripe" "trx_1" :: asking 0 ++
        .respond 0 (.error (.provider ⟨"timeout", true, none⟩)) :: .retry 1 1 :: asking 1 ++
          answering 1 ++ notifying 2 ++ [.answer 2 (.settled .credited), .advance 2]) start,
      (s.events.rows.map fun event => (event.status, event.outcome)) =
        [(.processed, some "credited")] := by
    decide +kernel
  obtain ⟨s, ran, processed⟩ := ran
  have reaches := Schedule.reaches_of_run ran
  exact ⟨s, reaches, matched_of_orderly reaches, processed⟩

/-- The answer is lost, the provider notifies, and a retry stores the answer after that. -/
def lostAnswer : List (Action (Fin 3)) :=
  .initializePayment 0 1 "stripe" "trx_1" :: asking 0 ++
    .respond 0 (.error (.provider ⟨"timeout", true, none⟩)) :: notifying 1 ++ .advance 1 ::
      .retry 2 1 :: asking 2 ++ answering 2

/-- The provider notifies before its answer is there. -/
def lateAnswer : List (Action (Fin 3)) :=
  .initializePayment 0 1 "stripe" "trx_1" :: asking 0 ++ notifying 1 ++ .advance 1 :: answering 0

theorem unmatched_of_run {actions : List (Action (Fin 3))}
    (ran : ∃ s ∈ Schedule.run (step sessions) Schedule.Any actions start, s.lost = true) :
    ∃ s, Schedule.run (step sessions) Schedule.Any actions start = some s ∧
      Reaches sessions Schedule.Any start s ∧ ¬ s.Matched := by
  obtain ⟨s, ran, lost⟩ := ran
  exact ⟨s, ran, Schedule.reaches_of_run ran, fun matched =>
    Bool.false_ne_true (matched.not_lost.symm.trans lost)⟩

/-- Either way the webhook is finished as one that matches no payment. -/
theorem unmatched_before_answer :
    (∃ s, Schedule.run (step sessions) Schedule.Any lostAnswer start = some s ∧
      Reaches sessions Schedule.Any start s ∧ ¬ s.Matched) ∧
    ∃ s, Schedule.run (step sessions) Schedule.Any lateAnswer start = some s ∧
      Reaches sessions Schedule.Any start s ∧ ¬ s.Matched :=
  ⟨unmatched_of_run (by decide +kernel), unmatched_of_run (by decide +kernel)⟩

end System

end Finstack.Webhooks.Matching
