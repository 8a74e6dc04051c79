import Finstack.Model.Notifications.Emails
import Mathlib.Data.Fintype.Basic

/-! # Once, unless nobody wrote it down

The record of an email is read before the email is sent and marked after. A handling that ends
between the two leaves a record that the next one reads as not sent. When no handling reads a record
that another one is about to mark, this is the only way to a second email.
-/

namespace Finstack.Notifications

open Foundation
open scoped Schedule

variable {ι : Type} [DecidableEq ι]

namespace System

/-- The handling has read this record as not sent and has not updated it yet. -/
def Holds (s : System ι) (i : ι) (record : EmailNotification) : Prop :=
  ∃ handling ∈ s.handlings i, handling.2.record = some record

instance (s : System ι) (i : ι) (record : EmailNotification) : Decidable (s.Holds i record) :=
  inferInstanceAs (Decidable (∃ handling ∈ s.handlings i, _))

/-- No other handling is between reading the record of this email and updating it. -/
def Free (s : System ι) (i : ι) (key : EmailKey) : Prop :=
  ∀ j ≠ i, ∀ handling ∈ s.handlings j, ∀ record ∈ handling.2.record, record.key ≠ key

instance [Fintype ι] (s : System ι) (i : ι) (key : EmailKey) : Decidable (s.Free i key) :=
  inferInstanceAs (Decidable (∀ j, j ≠ i → ∀ handling ∈ s.handlings j, _))

end System

/-- The record that is read next belongs to no other handling. -/
def Pc.FindsFree (s : System ι) (i : ι) (eventId : Uuid) : Pc → Prop
  | .find user _ loop => s.Free i (System.emailKey eventId loop.rule user)
  | _ => True

instance [Fintype ι] (s : System ι) (i : ι) (eventId : Uuid) :
    ∀ pc : Pc, Decidable (pc.FindsFree s i eventId)
  | .find user _ loop =>
    inferInstanceAs (Decidable (s.Free i (System.emailKey eventId loop.rule user)))
  | .rules _ _ | .recipients _ | .insert _ _ _ | .send _ _ _ | .markSent _ _ | .markFailed _ _
  | .returned _ | .threw | .crashed => .isTrue trivial

namespace System

/-- Two handlings do not send the same email at once. -/
def Apart : Action ι → System ι → Prop
  | .advance i, s => ∀ handling ∈ s.handlings i, handling.2.FindsFree s i handling.1
  | _, _ => True

instance [Fintype ι] : ∀ (a : Action ι) (s : System ι), Decidable (Apart a s)
  | .advance i, s =>
    inferInstanceAs (Decidable (∀ handling ∈ s.handlings i, handling.2.FindsFree s i handling.1))
  | .tick _, _ | .handle _ _ _, _ | .recipients _ _, _ | .insert _ _, _ | .transport _ _, _
  | .databaseFails _, _ | .crash _, _ => .isTrue trivial

/-! ## What a step does -/

/-- What a step does to the table, to what is held and to what the transport has accepted. -/
inductive Effect (s : System ι) : Action ι → System ι → Prop
  | ticks {now : Nat} : Effect s (.tick now) { s with now }
  /-- The handling gives up what it held, if anything, with nothing left to record. -/
  | moves {a : Action ι} {i : ι} {eventId : Uuid} {next : Pc} (unheld : next.record = none)
      (settled : ∀ handling ∈ s.handlings i, ∀ record loop, handling.2 ≠ .markSent record loop) :
      Effect s a (s.goto i eventId next)
  | inserts {i : ι} {eventId id : Uuid} {user : User} {email : RenderedEmail} {loop : Loop}
      (at_ : s.handlings i = some (eventId, .insert user email loop)) (fresh : id ∉ s.ids)
      (missing : s.rows (emailKey eventId loop.rule user) = none) {row : EmailNotification}
      (is : row.id = id) (about : row.key = emailKey eventId loop.rule user)
      (pending : row.status = .pending) :
      Effect s (.insert i id) { s.goto i eventId (.find user email loop) with
        ids := id :: s.ids
        rows := Function.update s.rows (emailKey eventId loop.rule user) (some row) }
  | reads {i : ι} {eventId : Uuid} {user : User} {email : RenderedEmail} {loop : Loop}
      {record : EmailNotification}
      (at_ : s.handlings i = some (eventId, .find user email loop))
      (found : s.rows (emailKey eventId loop.rule user) = some record)
      (unsent : record.status ≠ .sent) :
      Effect s (.advance i)
        (s.goto i eventId (.send { email with recipient := user.email } record loop))
  | accepts {i : ι} {eventId : Uuid} {message : EmailMessage} {record : EmailNotification}
      {loop : Loop}
      (at_ : s.handlings i = some (eventId, .send message record loop)) :
      Effect s (.transport i .accepted) { s.goto i eventId (.markSent record loop) with
        accepted := (record.key, message) :: s.accepted }
  | fails {i : ι} {eventId : Uuid} {message : EmailMessage} {record : EmailNotification}
      {error : String} {loop : Loop} {accepted : Bool}
      (at_ : s.handlings i = some (eventId, .send message record loop)) :
      Effect s (.transport i (.failed error accepted))
        { s.goto i eventId (.markFailed record error) with
          accepted := if accepted then (record.key, message) :: s.accepted else s.accepted
          unrecorded := if accepted then record.key :: s.unrecorded else s.unrecorded }
  | marksSent {i : ι} {eventId : Uuid} {record : EmailNotification} {loop : Loop}
      {patch : EmailNotification → EmailNotification}
      (at_ : s.handlings i = some (eventId, .markSent record loop))
      (same : ∀ row, (patch row).id = row.id ∧ (patch row).key = row.key)
      (sent : ∀ row, (patch row).status = .sent) :
      Effect s (.advance i) ((s.update record.id patch).goto i eventId
        (.recipients { loop with sent := loop.sent + 1 }))
  | marksFailed {i : ι} {eventId : Uuid} {record : EmailNotification} {error : String}
      {patch : EmailNotification → EmailNotification}
      (at_ : s.handlings i = some (eventId, .markFailed record error))
      (same : ∀ row, (patch row).id = row.id ∧ (patch row).key = row.key)
      (failed : ∀ row, (patch row).status ≠ .sent) :
      Effect s (.advance i) ((s.update record.id patch).goto i eventId .threw)
  /-- What the transport has accepted is not recorded. -/
  | loses {a : Action ι} {i : ι} {eventId : Uuid} {record : EmailNotification} {loop : Loop}
      {next : Pc} (unheld : next.record = none)
      (at_ : s.handlings i = some (eventId, .markSent record loop)) :
      Effect s a { s.goto i eventId next with unrecorded := record.key :: s.unrecorded }

variable {s s' : System ι} {i j : ι} {eventId : Uuid} {pc : Pc} {record : EmailNotification}
  {key : EmailKey}

theorem effect_of_step {a : Action ι} (stepped : step a s = some s') : Effect s a s' := by
  cases a with
  | tick now =>
    simp only [step] at stepped
    split_ifs at stepped
    cases stepped
    exact .ticks
  | handle i eventId rules =>
    simp only [step] at stepped
    split_ifs at stepped with free
    cases stepped
    refine .moves rfl fun handling at_ => ?_
    simp [Option.isNone_iff_eq_none.mp free] at at_
  | recipients i users =>
    obtain ⟨⟨eventId, pc⟩, at_, stepped⟩ := Option.bind_eq_some_iff.mp stepped
    cases pc with
    | rules rules sent =>
      cases rules with
      | nil => cases stepped
      | cons rule rules =>
        cases stepped
        exact .moves rfl (by simp [at_])
    | _ => cases stepped
  | insert i id =>
    obtain ⟨⟨eventId, pc⟩, at_, stepped⟩ := Option.bind_eq_some_iff.mp stepped
    cases pc with
    | insert user email loop =>
      unfold insert at stepped
      dsimp only at stepped
      split_ifs at stepped with taken there
      · cases stepped
        exact .moves rfl (by simp [at_])
      · cases stepped
        exact .inserts at_ taken (by simpa using there) rfl rfl rfl
    | _ => cases stepped
  | advance i =>
    obtain ⟨⟨eventId, pc⟩, at_, stepped⟩ := Option.bind_eq_some_iff.mp stepped
    cases pc with
    | rules rules sent =>
      cases rules with
      | nil => cases stepped; exact .moves rfl (by simp [at_])
      | cons rule rules => cases stepped
    | recipients loop =>
      obtain ⟨rule, users, rules, sent⟩ := loop
      cases users with
      | nil => cases stepped; exact .moves rfl (by simp [at_])
      | cons user users =>
        unfold advance at stepped
        dsimp only at stepped
        split_ifs at stepped <;> cases stepped <;> exact .moves rfl (by simp [at_])
    | find user email loop =>
      unfold advance at stepped
      dsimp only at stepped
      cases found : s.rows (emailKey eventId loop.rule user) with
      | none =>
        rw [found] at stepped
        cases stepped
        exact .moves rfl (by simp [at_])
      | some record =>
        rw [found] at stepped
        dsimp only at stepped
        split_ifs at stepped with sent
        · cases stepped
          exact .moves rfl (by simp [at_])
        · cases stepped
          exact .reads at_ found sent
    | markSent record loop =>
      cases stepped
      exact .marksSent at_ (fun _ => ⟨rfl, rfl⟩) fun _ => rfl
    | markFailed record error =>
      cases stepped
      exact .marksFailed at_ (fun _ => ⟨rfl, rfl⟩) fun _ => nofun
    | _ => cases stepped
  | transport i sending =>
    obtain ⟨⟨eventId, pc⟩, at_, stepped⟩ := Option.bind_eq_some_iff.mp stepped
    cases pc with
    | send message record loop =>
      cases sending with
      | accepted => cases stepped; exact .accepts at_
      | failed error accepted => cases accepted <;> cases stepped <;> exact .fails at_
    | _ => cases stepped
  | databaseFails i =>
    obtain ⟨⟨eventId, pc⟩, at_, stepped⟩ := Option.bind_eq_some_iff.mp stepped
    cases pc with
    | rules rules sent =>
      cases rules with
      | nil => cases stepped
      | cons rule rules => cases stepped; exact .moves rfl (by simp [at_])
    | markSent record loop => cases stepped; exact .loses rfl at_
    | insert user email loop => cases stepped; exact .moves rfl (by simp [at_])
    | find user email loop => cases stepped; exact .moves rfl (by simp [at_])
    | markFailed record error => cases stepped; exact .moves rfl (by simp [at_])
    | _ => cases stepped
  | crash i =>
    obtain ⟨⟨eventId, pc⟩, at_, stepped⟩ := Option.map_eq_some_iff.mp stepped
    cases pc with
    | markSent record loop => cases stepped; exact .loses rfl at_
    | _ => cases stepped; exact .moves rfl (by simp [at_])

/-! ## What is held -/

/-- The handling has sent this email and is about to record it. -/
def Marks (s : System ι) (i : ι) (record : EmailNotification) : Prop :=
  ∃ handling ∈ s.handlings i, ∃ loop, handling.2 = .markSent record loop

omit [DecidableEq ι] in
theorem Marks.holds (marks : s.Marks i record) : s.Holds i record := by
  obtain ⟨handling, at_, loop, is⟩ := marks
  exact ⟨handling, at_, by rw [is]; rfl⟩

omit [DecidableEq ι] in
theorem holds_of_at (at_ : s.handlings i = some (eventId, pc)) (record_ : pc.record = some record) :
    s.Holds i record :=
  ⟨_, at_, record_⟩

theorem holds_goto_self : (s.goto i eventId pc).Holds i record ↔ pc.record = some record := by
  simp [Holds, goto]

theorem holds_goto_ne (other : j ≠ i) : (s.goto i eventId pc).Holds j record ↔ s.Holds j record := by
  simp [Holds, goto, Function.update_of_ne other]

theorem marks_goto_self :
    (s.goto i eventId pc).Marks i record ↔ ∃ loop, pc = .markSent record loop := by
  simp [Marks, goto]

theorem marks_goto_ne (other : j ≠ i) : (s.goto i eventId pc).Marks j record ↔ s.Marks j record := by
  simp [Marks, goto, Function.update_of_ne other]

/-! ## What is counted -/

/-- How many emails were accepted under this key. -/
def acceptances (accepted : List (EmailKey × EmailMessage)) (key : EmailKey) : Nat :=
  (accepted.map Prod.fst).count key

theorem acceptances_cons {accepted : List (EmailKey × EmailMessage)} {key' : EmailKey}
    {message : EmailMessage} : acceptances ((key', message) :: accepted) key =
      acceptances accepted key + if key' = key then 1 else 0 := by
  simp [acceptances, List.count_cons]

/-- The table says that this email was sent. -/
def Recorded (s : System ι) (key : EmailKey) : Prop :=
  ∃ row ∈ s.rows key, row.status = .sent

/-- What is accepted is recorded, or about to be, or counted as unrecorded. -/
structure Counted (s : System ι) : Prop where
  keyed : ∀ key, ∀ row ∈ s.rows key, row.key = key ∧ row.id ∈ s.ids
  distinct : ∀ key key', ∀ row ∈ s.rows key, ∀ row' ∈ s.rows key', row.id = row'.id → key = key'
  held : ∀ i record, s.Holds i record →
    ∃ row ∈ s.rows record.key, row.id = record.id ∧ row.status ≠ .sent
  exclusive : ∀ i j record record', s.Holds i record → s.Holds j record' →
    record.key = record'.key → i = j
  bounded : ∀ key, acceptances s.accepted key ≤ s.unrecorded.count key + 1
  settled : ∀ key, ¬ s.Recorded key → (∀ i record, s.Marks i record → record.key ≠ key) →
    acceptances s.accepted key ≤ s.unrecorded.count key

omit [DecidableEq ι] in
theorem Counted.start (now : Nat) : (start now : System ι).Counted where
  keyed := nofun
  distinct := nofun
  held := by rintro i record ⟨handling, at_, -⟩; cases at_
  exclusive := by rintro i j record record' ⟨handling, at_, -⟩; cases at_
  bounded key := Nat.zero_le _
  settled key _ _ := Nat.zero_le _

/-- A handling that goes on without a record leaves nothing behind that is not counted. -/
theorem Counted.leave (counted : s.Counted) (unheld : pc.record = none) (lost : List EmailKey)
    (counts : ∀ record, s.Marks i record → record.key ∈ lost) :
    Counted { s.goto i eventId pc with unrecorded := lost ++ s.unrecorded } := by
  have still : ∀ j record, (s.goto i eventId pc).Holds j record → j ≠ i ∧ s.Holds j record := by
    intro j record holds
    rcases eq_or_ne j i with rfl | other
    · rw [holds_goto_self, unheld] at holds
      cases holds
    · exact ⟨other, (holds_goto_ne other).mp holds⟩
  refine ⟨counted.keyed, counted.distinct, ?_, ?_, ?_, ?_⟩
  · intro j record holds
    exact counted.held j record (still j record holds).2
  · intro j j' record record' holds holds'
    exact counted.exclusive j j' record record' (still j record holds).2 (still j' record' holds').2
  · intro key
    have before := counted.bounded key
    rw [List.count_append]
    exact le_trans before (by omega)
  · intro key unrecorded unmarked
    rw [List.count_append]
    by_cases counted' : key ∈ lost
    · have one : 0 < lost.count key := List.count_pos_iff.mpr counted'
      have before := counted.bounded key
      exact le_trans before (by omega)
    · refine le_trans (counted.settled key unrecorded fun j record marks => ?_) (by omega)
      rcases eq_or_ne j i with rfl | other
      · rintro rfl
        exact counted' (counts record marks)
      · exact unmarked j record ((marks_goto_ne other).mpr marks)

omit [DecidableEq ι] in
theorem Counted.insert_row {row : EmailNotification} {id : Uuid} (counted : s.Counted)
    (fresh : id ∉ s.ids) (missing : s.rows key = none) (is : row.id = id) (about : row.key = key)
    (unsent : row.status ≠ .sent) :
    Counted { s with ids := id :: s.ids, rows := Function.update s.rows key (some row) } := by
  have kept : ∀ key', ∀ row' ∈ s.rows key', key' ≠ key := by
    rintro key' row' there rfl
    rw [missing] at there
    cases there
  have cases : ∀ key', ∀ row' ∈ Function.update s.rows key (some row) key',
      (key' = key ∧ row' = row) ∨ (key' ≠ key ∧ row' ∈ s.rows key') := by
    intro key' row' there
    rcases eq_or_ne key' key with rfl | other
    · rw [Function.update_self] at there
      exact .inl ⟨rfl, (Option.some.inj there).symm⟩
    · rw [Function.update_of_ne other] at there
      exact .inr ⟨other, there⟩
  refine ⟨?_, ?_, ?_, counted.exclusive, counted.bounded, ?_⟩
  · intro key' row' there
    rcases cases key' row' there with ⟨rfl, rfl⟩ | ⟨-, there⟩
    · exact ⟨about, is ▸ List.mem_cons_self⟩
    · exact (counted.keyed key' row' there).imp_right fun known => List.mem_cons_of_mem _ known
  · intro key' key'' row' there row'' there' same
    rcases cases key' row' there with ⟨new, rfl⟩ | ⟨-, old⟩ <;>
      rcases cases key'' row'' there' with ⟨new', rfl⟩ | ⟨-, old'⟩
    · rw [new, new']
    · exact absurd ((is ▸ same) ▸ (counted.keyed key'' row'' old').2) fresh
    · exact absurd ((is ▸ same.symm) ▸ (counted.keyed key' row' old).2) fresh
    · exact counted.distinct key' key'' row' old row'' old' same
  · intro i record holds
    obtain ⟨row', there, same, status⟩ := counted.held i record holds
    exact ⟨row', (Function.update_of_ne (kept _ row' there) _ _).trans there, same, status⟩
  · intro key' unrecorded unmarked
    refine counted.settled key' (fun recorded => unrecorded ?_) unmarked
    obtain ⟨row', there, sent⟩ := recorded
    exact ⟨row', (Function.update_of_ne (kept _ row' there) _ _).trans there, sent⟩

/-- A record that nobody else holds is held. -/
theorem Counted.hold (counted : s.Counted) (free : s.Free i record.key)
    (there : s.rows record.key = some record) (unsent : record.status ≠ .sent)
    (holds : pc.record = some record) (idle : ∀ record, ¬ s.Marks i record) :
    (s.goto i eventId pc).Counted := by
  have alone : ∀ j record', s.Holds j record' → j ≠ i → record'.key ≠ record.key := by
    rintro j record' ⟨handling, at_, is⟩ other
    exact free j other handling at_ record' is
  have cases : ∀ j record', (s.goto i eventId pc).Holds j record' →
      (j = i ∧ record' = record) ∨ (j ≠ i ∧ s.Holds j record') := by
    intro j record' held
    rcases eq_or_ne j i with rfl | other
    · exact .inl ⟨rfl, by simpa [holds, eq_comm] using holds_goto_self.mp held⟩
    · exact .inr ⟨other, (holds_goto_ne other).mp held⟩
  refine ⟨counted.keyed, counted.distinct, ?_, ?_, counted.bounded, ?_⟩
  · intro j record' held
    rcases cases j record' held with ⟨-, rfl⟩ | ⟨-, before⟩
    · exact ⟨record', there, rfl, unsent⟩
    · exact counted.held j record' before
  · intro j j' record' record'' held held' same
    rcases cases j record' held with ⟨rfl, rfl⟩ | ⟨other, before⟩ <;>
      rcases cases j' record'' held' with ⟨is, is'⟩ | ⟨other', before'⟩
    · exact is.symm
    · exact absurd same.symm (alone j' record'' before' other')
    · exact absurd (is' ▸ same) (alone j record' before other)
    · exact counted.exclusive j j' record' record'' before before' same
  · intro key unrecorded others
    refine counted.settled key unrecorded fun j record' marks => ?_
    rcases eq_or_ne j i with rfl | other
    · exact absurd marks (idle record')
    · exact others j record' ((marks_goto_ne other).mpr marks)

/-- A handling that goes on with what it holds. -/
theorem Counted.keep (counted : s.Counted) (next : Pc) (at_ : s.handlings i = some (eventId, pc))
    (same : next.record = pc.record) (idle : ∀ record, ¬ s.Marks i record) :
    (s.goto i eventId next).Counted := by
  have before : ∀ j record', (s.goto i eventId next).Holds j record' → s.Holds j record' := by
    intro j record' held
    rcases eq_or_ne j i with rfl | other
    · exact holds_of_at at_ (same ▸ holds_goto_self.mp held)
    · exact (holds_goto_ne other).mp held
  refine ⟨counted.keyed, counted.distinct, ?_, ?_, counted.bounded, ?_⟩
  · intro j record' held
    exact counted.held j record' (before j record' held)
  · intro j j' record' record'' held held'
    exact counted.exclusive j j' record' record'' (before j record' held) (before j' record'' held')
  · intro key unrecorded others
    refine counted.settled key unrecorded fun j record' marks => ?_
    rcases eq_or_ne j i with rfl | other
    · exact absurd marks (idle record')
    · exact others j record' ((marks_goto_ne other).mpr marks)

omit [DecidableEq ι] in
/-- Nothing is owed for a record that is held and not marked. -/
theorem Counted.open_ (counted : s.Counted) (holds : s.Holds i record)
    (idle : ∀ record, ¬ s.Marks i record) :
    acceptances s.accepted record.key ≤ s.unrecorded.count record.key := by
  apply counted.settled
  · rintro ⟨row, there, sent⟩
    obtain ⟨row', there', -, unsent⟩ := counted.held i record holds
    obtain rfl := Option.mem_unique there there'
    exact unsent sent
  · intro j record' marks same
    obtain rfl := counted.exclusive j i record' record marks.holds holds same
    exact idle record' marks

/-- The transport accepts what is about to be recorded. -/
theorem Counted.accept {message : EmailMessage} {loop : Loop} (counted : s.Counted)
    (at_ : s.handlings i = some (eventId, .send message record loop)) :
    Counted { s.goto i eventId (.markSent record loop) with
      accepted := (record.key, message) :: s.accepted } := by
  have idle : ∀ record, ¬ s.Marks i record := by
    rintro record' ⟨handling, at_', loop', is⟩
    rw [at_] at at_'
    cases at_'
    cases is
  have owed := counted.open_ (holds_of_at at_ rfl) idle
  have kept := counted.keep (.markSent record loop) at_ rfl idle
  refine ⟨kept.keyed, kept.distinct, kept.held, kept.exclusive, ?_, ?_⟩
  · intro key
    change acceptances ((record.key, message) :: s.accepted) key ≤ s.unrecorded.count key + 1
    rw [acceptances_cons]
    split_ifs with same
    · subst same
      exact Nat.succ_le_succ owed
    · exact counted.bounded key
  · intro key unrecorded others
    have different := others i record (marks_goto_self.mpr ⟨loop, rfl⟩)
    change acceptances ((record.key, message) :: s.accepted) key ≤ s.unrecorded.count key
    rw [acceptances_cons, if_neg different]
    exact kept.settled key unrecorded others

/-- The transport throws, and what it has accepted is counted. -/
theorem Counted.fail {message : EmailMessage} {error : String} {loop : Loop} (accepted : Bool)
    (counted : s.Counted) (at_ : s.handlings i = some (eventId, .send message record loop)) :
    Counted { s.goto i eventId (.markFailed record error) with
      accepted := if accepted then (record.key, message) :: s.accepted else s.accepted
      unrecorded := if accepted then record.key :: s.unrecorded else s.unrecorded } := by
  have idle : ∀ record, ¬ s.Marks i record := by
    rintro record' ⟨handling, at_', loop', is⟩
    rw [at_] at at_'
    cases at_'
    cases is
  have kept := counted.keep (.markFailed record error) at_ rfl idle
  cases accepted with
  | false => exact kept
  | true =>
    refine ⟨kept.keyed, kept.distinct, kept.held, kept.exclusive, ?_, ?_⟩
    · intro key
      have before : acceptances s.accepted key ≤ s.unrecorded.count key + 1 := counted.bounded key
      change acceptances ((record.key, message) :: s.accepted) key ≤
        (record.key :: s.unrecorded).count key + 1
      simp only [acceptances_cons, List.count_cons, beq_iff_eq]
      omega
    · intro key unrecorded others
      have before : acceptances s.accepted key ≤ s.unrecorded.count key :=
        kept.settled key unrecorded others
      change acceptances ((record.key, message) :: s.accepted) key ≤
        (record.key :: s.unrecorded).count key
      simp only [acceptances_cons, List.count_cons, beq_iff_eq]
      omega

/-! ## Updates -/

section Update

variable {patch : EmailNotification → EmailNotification}

omit [DecidableEq ι] in
theorem mem_update {id : Uuid} {row : EmailNotification} :
    row ∈ (s.update id patch).rows key ↔
      ∃ before ∈ s.rows key, (if before.id = id then patch before else before) = row :=
  Option.mem_map

omit [DecidableEq ι] in
/-- An update changes neither which rows there are nor what they are about. -/
theorem update_keeps {id : Uuid} {row : EmailNotification}
    (same : ∀ row, (patch row).id = row.id ∧ (patch row).key = row.key)
    (there : row ∈ (s.update id patch).rows key) :
    ∃ before ∈ s.rows key, row.id = before.id ∧ row.key = before.key := by
  obtain ⟨before, known, rfl⟩ := mem_update.mp there
  refine ⟨before, known, ?_⟩
  split_ifs
  · exact same before
  · exact ⟨rfl, rfl⟩

omit [DecidableEq ι] in
theorem Counted.update_keyed {id : Uuid} (counted : s.Counted)
    (same : ∀ row, (patch row).id = row.id ∧ (patch row).key = row.key) :
    ∀ key, ∀ row ∈ (s.update id patch).rows key, row.key = key ∧ row.id ∈ s.ids := by
  intro key row there
  obtain ⟨before, known, sameId, sameKey⟩ := update_keeps same there
  rw [sameId, sameKey]
  exact counted.keyed key before known

omit [DecidableEq ι] in
theorem Counted.update_distinct {id : Uuid} (counted : s.Counted)
    (same : ∀ row, (patch row).id = row.id ∧ (patch row).key = row.key) :
    ∀ key key', ∀ row ∈ (s.update id patch).rows key, ∀ row' ∈ (s.update id patch).rows key',
      row.id = row'.id → key = key' := by
  intro key key' row there row' there' ids
  obtain ⟨before, known, sameId, -⟩ := update_keeps same there
  obtain ⟨before', known', sameId', -⟩ := update_keeps same there'
  exact counted.distinct key key' before known before' known' (sameId ▸ ids.trans sameId')

/-- What was held is recorded. -/
theorem Counted.mark_sent {loop : Loop} {next : Pc} (counted : s.Counted)
    (at_ : s.handlings i = some (eventId, .markSent record loop))
    (same : ∀ row, (patch row).id = row.id ∧ (patch row).key = row.key)
    (sent : ∀ row, (patch row).status = .sent) (unheld : next.record = none) :
    ((s.update record.id patch).goto i eventId next).Counted := by
  have holds : s.Holds i record := holds_of_at at_ rfl
  obtain ⟨row, there, is, -⟩ := counted.held i record holds
  have still : ∀ j record', ((s.update record.id patch).goto i eventId next).Holds j record' →
      s.Holds j record' ∧ record'.key ≠ record.key := by
    intro j record' held
    rcases eq_or_ne j i with rfl | other
    · rw [holds_goto_self, unheld] at held
      cases held
    · have before : s.Holds j record' := (holds_goto_ne other).mp held
      exact ⟨before, fun key => other (counted.exclusive j i record' record before holds key)⟩
  have recorded : ∀ key, key = record.key ∨ s.Recorded key →
      ((s.update record.id patch).goto i eventId next).Recorded key := by
    rintro key (rfl | ⟨row', there', status⟩)
    · exact ⟨patch row, mem_update.mpr ⟨row, there, if_pos is⟩, sent row⟩
    · refine ⟨_, mem_update.mpr ⟨row', there', rfl⟩, ?_⟩
      split_ifs
      · exact sent row'
      · exact status
  refine ⟨counted.update_keyed same, counted.update_distinct same, ?_, ?_, counted.bounded, ?_⟩
  · intro j record' held
    obtain ⟨before, different⟩ := still j record' held
    obtain ⟨row', there', is', unsent⟩ := counted.held j record' before
    have untouched : row'.id ≠ record.id := fun ids =>
      different (counted.distinct _ _ row' there' row there (ids.trans is.symm))
    exact ⟨row', mem_update.mpr ⟨row', there', if_neg untouched⟩, is', unsent⟩
  · intro j j' record' record'' held held'
    exact counted.exclusive j j' record' record'' (still j record' held).1
      (still j' record'' held').1
  · intro key unrecorded others
    refine counted.settled key (fun earlier => unrecorded (recorded key (.inr earlier))) ?_
    intro j record' marks about
    rcases eq_or_ne j i with rfl | other
    · obtain ⟨handling, at_', loop', is'⟩ := marks
      obtain rfl := Option.mem_unique at_ at_'
      cases is'
      exact unrecorded (recorded key (.inl about.symm))
    · exact others j record' ((marks_goto_ne other).mpr marks) about

omit [DecidableEq ι] in
/-- What is held stays unsent. -/
theorem Counted.mark_failed (counted : s.Counted) (holds : s.Holds i record)
    (same : ∀ row, (patch row).id = row.id ∧ (patch row).key = row.key)
    (failed : ∀ row, (patch row).status ≠ .sent) : (s.update record.id patch).Counted := by
  obtain ⟨row, there, is, unsent⟩ := counted.held i record holds
  refine ⟨counted.update_keyed same, counted.update_distinct same, ?_, counted.exclusive,
    counted.bounded, ?_⟩
  · intro j record' held
    obtain ⟨row', there', is', unsent'⟩ := counted.held j record' held
    refine ⟨_, mem_update.mpr ⟨row', there', rfl⟩, ?_⟩
    split_ifs
    · exact ⟨(same row').1.trans is', failed row'⟩
    · exact ⟨is', unsent'⟩
  · intro key unrecorded
    apply counted.settled key
    rintro ⟨row', there', sent⟩
    have untouched : row'.id ≠ record.id := by
      intro ids
      obtain rfl := counted.distinct key record.key row' there' row there (ids.trans is.symm)
      obtain rfl := Option.mem_unique there there'
      exact unsent sent
    exact unrecorded ⟨row', mem_update.mpr ⟨row', there', if_neg untouched⟩, sent⟩

end Update

/-! ## Runs -/

theorem Counted.step {a : Action ι} (counted : s.Counted) (apart : Apart a s)
    (stepped : step a s = some s') : s'.Counted := by
  cases effect_of_step stepped with
  | ticks => exact ⟨counted.keyed, counted.distinct, counted.held, counted.exclusive,
      counted.bounded, counted.settled⟩
  | moves unheld settled =>
    refine counted.leave unheld [] ?_
    rintro record ⟨handling, at_, loop, is⟩
    exact absurd is (settled handling at_ record loop)
  | @inserts i eventId id user email loop at_ fresh missing row is about pending =>
    have inserted := counted.insert_row fresh missing is about (by simp [pending])
    apply Counted.leave inserted (rfl : (Pc.find user email loop).record = none) []
    rintro record ⟨handling, at_', loop', is⟩
    obtain rfl := Option.mem_unique at_ at_'
    cases is
  | @reads i eventId user email loop record at_ found unsent =>
    obtain ⟨about, -⟩ := counted.keyed _ _ found
    have free : s.Free i record.key := about ▸ apart _ at_
    refine counted.hold free (about ▸ found) unsent rfl ?_
    rintro record ⟨handling, at_', loop', is⟩
    obtain rfl := Option.mem_unique at_ at_'
    cases is
  | accepts at_ => exact counted.accept at_
  | @fails i eventId message record error loop accepted at_ => exact counted.fail accepted at_
  | marksSent at_ same sent => exact counted.mark_sent at_ same sent rfl
  | @marksFailed i eventId record error patch at_ same failed =>
    have updated := counted.mark_failed (holds_of_at at_ rfl) same failed
    refine updated.leave rfl [] ?_
    rintro record ⟨handling, at_', loop', is⟩
    obtain rfl := Option.mem_unique at_ at_'
    cases is
  | @loses a i eventId record loop next unheld at_ =>
    refine counted.leave unheld [record.key] ?_
    rintro record' ⟨handling, at_', loop', is⟩
    obtain rfl := Option.mem_unique at_ at_'
    cases is
    exact List.mem_singleton.mpr rfl

/-- In runs in which no two handlings send the same email at once, the transport accepts one email
for each acceptance that nothing records, and one more. -/
theorem accepted_once {now : Nat} (reaches : Reaches Apart (start now) s) (key : EmailKey) :
    acceptances s.accepted key ≤ s.unrecorded.count key + 1 := by
  have counted : s.Counted :=
    reaches.invariant Counted (fun _ _ _ counted => counted.step) (.start now)
  exact counted.bounded key

def received : NotificationRule := ⟨"payment_received", "Payment received", ["We received it."], none⟩

def ada : User := ⟨1, "ada@example.com", some "Ada", true⟩

/-- A worker sends an email and dies before its update; another one handles the event again. -/
def sentAgain : List (Action (Fin 2)) :=
  [.handle 0 7 [received], .recipients 0 [ada], .advance 0, .insert 0 5, .advance 0,
    .transport 0 .accepted, .crash 0,
    .handle 1 7 [received], .recipients 1 [ada], .advance 1, .insert 1 6, .advance 1,
    .transport 1 .accepted, .advance 1, .advance 1, .advance 1]

/-- The worker that died has left an acceptance unrecorded, and there is one more. -/
theorem accepted_once_unless_unrecorded : ∃ s : System (Fin 2), Reaches Apart (start 0) s ∧
    s.unrecorded = [⟨7, "payment_received", 1⟩] ∧
    acceptances s.accepted ⟨7, "payment_received", 1⟩ ≤
      s.unrecorded.count ⟨7, "payment_received", 1⟩ + 1 := by
  have ran : (Schedule.run step Apart sentAgain (start 0)).map
      (fun s => decide (s.unrecorded = [⟨7, "payment_received", 1⟩])) = some true := by
    decide +kernel
  obtain ⟨s, ran, unrecorded⟩ := Option.map_eq_some_iff.mp ran
  have run := Schedule.reaches_of_run ran
  exact ⟨s, run, of_decide_eq_true unrecorded, accepted_once run _⟩

/-- The transport has accepted the same email twice. -/
theorem accepted_twice_after_crash : ∃ s : System (Fin 2), Reaches Schedule.Any (start 0) s ∧
    ¬ acceptances s.accepted ⟨7, "payment_received", 1⟩ ≤ 1 := by
  have ran : (Schedule.run step Schedule.Any sentAgain (start 0)).map
      (fun s => acceptances s.accepted ⟨7, "payment_received", 1⟩) = some 2 := by
    decide +kernel
  obtain ⟨s, ran, twice⟩ := Option.map_eq_some_iff.mp ran
  exact ⟨s, Schedule.reaches_of_run ran, by rw [twice]; decide⟩

end System

end Finstack.Notifications
