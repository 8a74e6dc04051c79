import Finstack.Model.OutboundWebhooks.Deliveries
import Mathlib.Data.Fintype.Basic

/-! # Successes and failures in a row

What is recorded of a delivery stays so, and the endpoint is disabled when its failures in a row say
so, in runs in which no attempt writes over what others have recorded since it read: a failure over
a success, or a decision over what has changed it.
-/

namespace Finstack.OutboundWebhooks.Deliveries

open Foundation
open scoped Schedule

variable {ι : Type} [DecidableEq ι]

/-! ## The trail -/

/-- No success was recorded, and nobody enabled the endpoint, since the attempt `i` counted. -/
def undecided (i : ι) : List (Record ι) → Bool
  | [] => true
  | .finalFailure j :: earlier => j = i || undecided i earlier
  | .succeeded _ :: _ | .enabled :: _ => false
  | .unsuccessful _ :: earlier | .redelivered _ :: earlier | .disabled _ :: earlier =>
    undecided i earlier

/-- The last count of the attempt `i` made this many failures in a row. -/
def Decides (disableAfterFailures : Nat) (i : ι) : List (Record ι) → Prop
  | [] => False
  | .finalFailure j :: earlier =>
    if j = i then disableAfterFailures ≤ failuresSince earlier + 1
    else Decides disableAfterFailures i earlier
  | .succeeded _ :: earlier | .enabled :: earlier | .unsuccessful _ :: earlier
  | .redelivered _ :: earlier | .disabled _ :: earlier => Decides disableAfterFailures i earlier

/-- The system disabled the endpoint, and nobody has enabled it since. -/
def disabledOn : List (Record ι) → Bool
  | [] => false
  | .disabled _ :: _ => true
  | .enabled :: _ => false
  | .succeeded _ :: earlier | .unsuccessful _ :: earlier | .redelivered _ :: earlier
  | .finalFailure _ :: earlier => disabledOn earlier

/-- Wherever the system disabled the endpoint, so many final failures were on record. -/
def OnlyThen (disableAfterFailures : Nat) (trail : List (Record ι)) : Prop :=
  ∀ later i earlier, trail = later ++ .disabled i :: earlier →
    disableAfterFailures ≤ failuresSince earlier

/-- Whoever recorded the final failure that made so many has disabled the endpoint, or is about to. -/
def Always (disableAfterFailures : Nat) (trail : List (Record ι)) (about : ι → Prop) : Prop :=
  ∀ later i earlier, trail = later ++ .finalFailure i :: earlier →
    disableAfterFailures ≤ failuresSince earlier + 1 → .disabled i ∈ later ∨ about i

section

variable {disableAfterFailures : Nat} {trail : List (Record ι)} {about about' : ι → Prop}
  {record : Record ι}

omit [DecidableEq ι]

theorem OnlyThen.cons (only : OnlyThen disableAfterFailures trail)
    (next : ∀ i, record = .disabled i → disableAfterFailures ≤ failuresSince trail) :
    OnlyThen disableAfterFailures (record :: trail) := by
  intro later i earlier split
  cases later with
  | nil =>
    obtain ⟨rfl, rfl⟩ := List.cons.inj split
    exact next i rfl
  | cons first later => exact only later i earlier (List.cons.inj split).2

theorem Always.mono (always : Always disableAfterFailures trail about)
    (still : ∀ i, about i → about' i) : Always disableAfterFailures trail about' :=
  fun later i earlier split most => (always later i earlier split most).imp_right (still i)

theorem Always.cons (always : Always disableAfterFailures trail about)
    (still : ∀ i, about i → record = .disabled i ∨ about' i)
    (next : ∀ i, record = .finalFailure i → disableAfterFailures ≤ failuresSince trail + 1 →
      about' i) : Always disableAfterFailures (record :: trail) about' := by
  intro later i earlier split most
  cases later with
  | nil =>
    obtain ⟨rfl, rfl⟩ := List.cons.inj split
    exact .inr (next i rfl most)
  | cons first later =>
    obtain ⟨rfl, rest⟩ := List.cons.inj split
    rcases always later i earlier rest most with done | due
    · exact .inl (List.mem_cons_of_mem _ done)
    · rcases still i due with rfl | due
      · exact .inl List.mem_cons_self
      · exact .inr due

end

/-- What was decided holds until something resets the count. -/
theorem Decides.failuresSince {disableAfterFailures : Nat} {i : ι} {trail : List (Record ι)}
    (decides : Decides disableAfterFailures i trail) (still : undecided i trail = true) :
    disableAfterFailures ≤ failuresSince trail := by
  induction trail with
  | nil => exact decides.elim
  | cons record earlier ih =>
    cases record with
    | finalFailure j =>
      simp only [Decides] at decides
      simp only [Deliveries.failuresSince]
      split_ifs at decides with own
      · exact decides
      · have := ih decides (by simpa [undecided, own] using still)
        omega
    | succeeded id => simp [undecided] at still
    | enabled => simp [undecided] at still
    | unsuccessful id => exact ih decides still
    | redelivered id => exact ih decides still
    | disabled j => exact ih decides still

/-- The delivery that an attempt has read. -/
def Pc.delivery : Pc → Option Delivery
  | .findEndpoint delivery | .refuse delivery | .send delivery _ | .succeed delivery _ _
  | .fail delivery _ _ => some delivery
  | _ => none

/-- The attempt still has to write what belongs to its last write. -/
def Pc.owes : Pc → Bool
  | .reset | .disable _ => true
  | _ => false

namespace System

variable {disableAfterFailures : Nat} {s s' : System ι} {i j : ι} {attempt : Attempt} {pc : Pc}

def pcOf (s : System ι) (i : ι) : Option Pc := (s.attempts i).map (·.pc)

/-- A success is recorded and its reset of the failures is still to come. -/
def AwaitsReset (s : System ι) : Prop := ∃ i, s.pcOf i = some .reset

/-- The attempt has counted too many failures and is about to disable the endpoint. -/
def Disabling (s : System ι) (i : ι) : Prop := ∃ failures, s.pcOf i = some (.disable failures)

/-! ## What runs may do -/

/-- The attempt's next write is over nothing that was recorded since it read: a failure over a success,
a success without a reset over failures, a count before the reset of a success, a decision over what
has changed it. -/
def MayWrite (s : System ι) (i : ι) : Pc → Prop
  | .refuse delivery | .fail delivery _ _ =>
    (s.deliveries delivery.id).all (·.status ≠ .succeeded) = true
  | .succeed _ endpoint _ =>
    endpoint.consecutiveFailures = 0 → s.endpoint.consecutiveFailures = 0 ∨ s.AwaitsReset
  | .recordFinalFailure => ¬ s.AwaitsReset
  | .disable _ => undecided i s.trail = true
  | .findDelivery | .findEndpoint _ | .send _ _ | .reset | .returned _ | .crashed => True

/-- No attempt dies between two writes that belong together, unless the second would change nothing. -/
def MayDie (s : System ι) : Pc → Prop
  | .reset => s.endpoint.consecutiveFailures = 0
  | .disable _ => False
  | .findDelivery | .findEndpoint _ | .refuse _ | .send _ _ | .succeed _ _ _ | .fail _ _ _
  | .recordFinalFailure | .returned _ | .crashed => True

/-- What attempts write belongs to what is there. -/
def Orderly : Action ι → System ι → Prop
  | .advance i _, s => ∀ pc ∈ s.pcOf i, s.MayWrite i pc
  | .crash i, s => ∀ pc ∈ s.pcOf i, s.MayDie pc
  | .create _, _ | .attempt _ _ _, _ | .respond _ _, _ | .redeliver _, _ | .update _, _
  | .remove _, _ => True

section

variable [Fintype ι] (s : System ι)

instance : Decidable s.AwaitsReset := inferInstanceAs (Decidable (∃ i, s.pcOf i = some .reset))

instance (i : ι) : ∀ pc, Decidable (s.MayWrite i pc)
  | .refuse delivery | .fail delivery _ _ =>
    inferInstanceAs (Decidable ((s.deliveries delivery.id).all (·.status ≠ .succeeded) = true))
  | .succeed _ endpoint _ => inferInstanceAs (Decidable (endpoint.consecutiveFailures = 0 →
      s.endpoint.consecutiveFailures = 0 ∨ s.AwaitsReset))
  | .recordFinalFailure => inferInstanceAs (Decidable (¬ s.AwaitsReset))
  | .disable _ => inferInstanceAs (Decidable (undecided i s.trail = true))
  | .findDelivery | .findEndpoint _ | .send _ _ | .reset | .returned _ | .crashed => .isTrue trivial

omit [Fintype ι] in
instance : ∀ pc, Decidable (s.MayDie pc)
  | .reset => inferInstanceAs (Decidable (s.endpoint.consecutiveFailures = 0))
  | .disable _ => .isFalse id
  | .findDelivery | .findEndpoint _ | .refuse _ | .send _ _ | .succeed _ _ _ | .fail _ _ _
  | .recordFinalFailure | .returned _ | .crashed => .isTrue trivial

instance : ∀ (a : Action ι) (s : System ι), Decidable (Orderly a s)
  | .advance i _, s => inferInstanceAs (Decidable (∀ pc ∈ s.pcOf i, s.MayWrite i pc))
  | .crash i, s => inferInstanceAs (Decidable (∀ pc ∈ s.pcOf i, s.MayDie pc))
  | .create _, _ | .attempt _ _ _, _ | .respond _ _, _ | .redeliver _, _ | .update _, _
  | .remove _, _ => .isTrue trivial

end

/-- Nothing is left of what the attempt has begun to write. -/
def Free (s : System ι) (i : ι) : Prop := ∀ pc ∈ s.pcOf i, pc.owes = false

omit [DecidableEq ι] in
theorem free_of_at (at_ : s.pcOf i = some pc) (plain : pc.owes = false) : s.Free i := by
  intro other there
  obtain rfl := Option.mem_unique there at_
  exact plain

/-- A delivery recorded as succeeded is so until it is redelivered; the system disables the endpoint
when, and only when, this many final failures are on record since the last success or since the
endpoint was enabled. -/
structure Exact (disableAfterFailures : Nat) (s : System ι) : Prop where
  succeeded : ∀ id, succeededOn id s.trail = true →
    ∃ row, s.deliveries id = some row ∧ row.status = .succeeded
  onlyThen : OnlyThen disableAfterFailures s.trail
  always : Always disableAfterFailures s.trail s.Disabling
  off : disabledOn s.trail = true → s.endpoint.enabled = false
  counted : ¬ s.AwaitsReset → s.endpoint.consecutiveFailures = failuresSince s.trail

/-! ## What a step does -/

inductive Effect (disableAfterFailures : Nat) (s : System ι) : System ι → Prop
  | creates {id : Uuid} (fresh : s.deliveries id = none) : Effect disableAfterFailures s
      { s with deliveries := Function.update s.deliveries id (some { id := id }) }
  /-- An attempt starts, reads, hears from the receiver or dies. -/
  | moves {i : ι} {attempt : Attempt} {pc : Pc} (free : s.Free i) (plain : pc.owes = false)
      (known : ∀ delivery ∈ pc.delivery, (∃ before ∈ s.pcOf i, delivery ∈ before.delivery) ∨
        ∃ id, s.deliveries id = some delivery) :
      Effect disableAfterFailures s (s.goto i attempt pc)
  | fails {i : ι} {attempt : Attempt} {pc : Pc} {id : Uuid} {change : Delivery → Delivery}
      (free : s.Free i) (plain : pc.owes = false) (ended : pc.delivery = none)
      (unsuccessful : (s.deliveries id).all (·.status ≠ .succeeded) = true)
      (same : ∀ row, (change row).id = row.id) :
      Effect disableAfterFailures s
        (((s.update id change).record (.unsuccessful id)).goto i attempt pc)
  | succeeds {i : ι} {attempt : Attempt} {before pc : Pc} {delivery : Delivery}
      {change : Delivery → Delivery} (at_ : s.pcOf i = some before) (free : before.owes = false)
      (read : before.delivery = some delivery) (ended : pc.delivery = none)
      (success : ∀ row, (change row).status = .succeeded ∧ (change row).id = row.id)
      (next : pc = .reset ∨
        pc.owes = false ∧ (s.endpoint.consecutiveFailures = 0 ∨ s.AwaitsReset)) :
      Effect disableAfterFailures s
        (((s.update delivery.id change).record (.succeeded delivery.id)).goto i attempt pc)
  | resets {i : ι} {attempt : Attempt} {pc : Pc} (at_ : s.pcOf i = some .reset)
      (plain : pc.owes = false) (ended : pc.delivery = none) : Effect disableAfterFailures s
        ((s.updateEndpoint fun row => { row with consecutiveFailures := 0 }).goto i attempt pc)
  | counts {i : ι} {attempt : Attempt} {pc : Pc} (free : s.Free i) (settled : ¬ s.AwaitsReset)
      (ended : pc.delivery = none)
      (next : if disableAfterFailures ≤ s.endpoint.consecutiveFailures + 1 then
        ∃ failures, pc = .disable failures else pc.owes = false) :
      Effect disableAfterFailures s (((s.updateEndpoint fun row => { row with
        consecutiveFailures := s.endpoint.consecutiveFailures + 1 }).record
          (.finalFailure i)).goto i attempt pc)
  | disables {i : ι} {attempt : Attempt} {pc : Pc} {failures : Nat} {reason : Option String}
      (at_ : s.pcOf i = some (.disable failures)) (still : undecided i s.trail = true)
      (plain : pc.owes = false) (ended : pc.delivery = none) :
      Effect disableAfterFailures s (((s.updateEndpoint fun row => { row with
        enabled := false, disabledReason := reason }).record (.disabled i)).goto i attempt pc)
  | redelivers {id : Uuid} : Effect disableAfterFailures s
      ((s.update id fun row => { row with status := .pending }).record (.redelivered id))
  | enables : Effect disableAfterFailures s ((s.updateEndpoint fun row => { row with
      enabled := true, disabledReason := none, consecutiveFailures := 0 }).record .enabled)
  | switchesOff {change : Endpoint → Endpoint} (off : ∀ row, (change row).enabled = false ∧
      (change row).consecutiveFailures = row.consecutiveFailures) :
      Effect disableAfterFailures s (s.updateEndpoint change)
  /-- A worker dies before it resets what is zero already. -/
  | dies {i : ι} {attempt : Attempt} (at_ : s.pcOf i = some .reset)
      (zero : s.endpoint.consecutiveFailures = 0) :
      Effect disableAfterFailures s (s.goto i attempt .crashed)

theorem effect_of_step {a : Action ι} (orderly : Orderly a s)
    (stepped : step disableAfterFailures a s = some s') : Effect disableAfterFailures s s' := by
  cases a with
  | create id =>
    simp only [step] at stepped
    split_ifs at stepped with fresh
    cases stepped
    exact .creates fresh
  | attempt i id lastAttempt =>
    simp only [step] at stepped
    split_ifs at stepped with unused
    cases stepped
    exact .moves (by simp [Free, pcOf, unused]) rfl (by simp [Pc.delivery])
  | redeliver id =>
    simp only [step] at stepped
    split_ifs at stepped
    cases stepped
    exact .redelivers
  | update enabled =>
    cases enabled <;> cases stepped
    · exact .switchesOff fun _ => ⟨rfl, rfl⟩
    · exact .enables
  | remove now =>
    cases stepped
    exact .switchesOff fun _ => ⟨rfl, rfl⟩
  | crash i =>
    simp only [step] at stepped
    obtain ⟨attempt, there, rfl⟩ := Option.map_eq_some_iff.mp stepped
    have at_ : s.pcOf i = some attempt.pc := by simp [pcOf, there]
    have orderly := orderly _ at_
    by_cases owes : attempt.pc.owes = false
    · exact .moves (free_of_at at_ owes) rfl (by simp [Pc.delivery])
    · cases pc : attempt.pc <;> simp only [pc, MayDie] at orderly owes at_
      all_goals first | exact absurd rfl owes | exact orderly.elim | exact .dies at_ orderly
  | respond i result =>
    simp only [step] at stepped
    obtain ⟨attempt, there, responded⟩ := Option.bind_eq_some_iff.mp stepped
    have at_ : s.pcOf i = some attempt.pc := by simp [pcOf, there]
    unfold respond at responded
    split at responded
    · next delivery endpoint pc =>
      have known : ∀ other ∈ (Pc.send delivery endpoint).delivery,
          ∃ before ∈ s.pcOf i, other ∈ before.delivery :=
        fun other read => ⟨_, at_.trans (congrArg some pc), read⟩
      split at responded <;> cases responded
      · exact .moves (free_of_at at_ (by rw [pc]; rfl)) rfl fun other read => .inl (known other read)
      · exact .moves (free_of_at at_ (by rw [pc]; rfl)) rfl fun other read => .inl (known other read)
    · cases responded
  | advance i now =>
    simp only [step] at stepped
    obtain ⟨attempt, there, advanced⟩ := Option.bind_eq_some_iff.mp stepped
    have at_ : s.pcOf i = some attempt.pc := by simp [pcOf, there]
    have orderly := orderly _ at_
    cases pc : attempt.pc <;> simp only [advance, pc, MayWrite] at advanced orderly at_
    case findDelivery =>
      have free := free_of_at at_ rfl
      cases found : s.deliveries attempt.deliveryId <;> simp only [found] at advanced
      case none =>
        cases advanced
        exact .moves free rfl (by simp [Pc.delivery])
      case some delivery =>
        split_ifs at advanced <;> cases advanced
        · exact .moves free rfl (by simp [Pc.delivery])
        · refine .moves free rfl fun other read => .inr ⟨attempt.deliveryId, ?_⟩
          simpa [Pc.delivery, found] using read
    case findEndpoint delivery =>
      have free := free_of_at at_ rfl
      split_ifs at advanced <;> cases advanced
      · exact .moves free rfl fun other read => .inl ⟨_, at_, read⟩
      · exact .moves free rfl fun other read => .inl ⟨_, at_, read⟩
    case refuse delivery =>
      cases advanced
      exact .fails (free_of_at at_ rfl) rfl rfl orderly fun _ => rfl
    case succeed delivery endpoint status =>
      cases advanced
      refine .succeeds at_ rfl rfl (by split_ifs <;> rfl) (fun _ => ⟨rfl, rfl⟩) ?_
      by_cases failed : endpoint.consecutiveFailures > 0
      · exact .inl (if_pos failed)
      · rw [if_neg failed]
        exact .inr ⟨rfl, orderly (by omega)⟩
    case reset =>
      cases advanced
      exact .resets at_ rfl rfl
    case fail delivery status error =>
      cases advanced
      refine .fails (free_of_at at_ rfl) ?_ ?_ orderly fun _ => rfl
      · split_ifs <;> rfl
      · split_ifs <;> rfl
    case recordFinalFailure =>
      cases advanced
      refine .counts (free_of_at at_ rfl) orderly (by split_ifs <;> rfl) ?_
      split_ifs with most
      · exact ⟨_, rfl⟩
      · rfl
    case disable failures =>
      cases advanced
      exact .disables at_ orderly rfl rfl
    all_goals cases advanced

/-! ## The invariant -/

structure Inv (disableAfterFailures : Nat) (s : System ι) : Prop
    extends Exact disableAfterFailures s where
  rows : ∀ id row, s.deliveries id = some row → row.id = id
  known : ∀ i, ∀ pc ∈ s.pcOf i, ∀ delivery ∈ pc.delivery, (s.deliveries delivery.id).isSome
  resetting : s.AwaitsReset → failuresSince s.trail = 0
  deciding : ∀ i, s.Disabling i → Decides disableAfterFailures i s.trail

theorem Inv.start : (start : System ι).Inv disableAfterFailures where
  succeeded _ none := nomatch none
  onlyThen later i earlier split := by simp [System.start] at split
  always later i earlier split := by simp [System.start] at split
  off none := nomatch none
  counted _ := rfl
  rows _ _ none := nomatch none
  known i pc there := by simp [pcOf, System.start] at there
  resetting := by rintro ⟨i, there⟩; simp [pcOf, System.start] at there
  deciding := by rintro i ⟨failures, there⟩; simp [pcOf, System.start] at there

theorem pcOf_goto : (s.goto i attempt pc).pcOf j = if j = i then some pc else s.pcOf j := by
  by_cases same : j = i
  · simp [pcOf, goto, same]
  · simp [pcOf, goto, same]

theorem pcOf_goto_self : (s.goto i attempt pc).pcOf i = some pc := by simp [pcOf_goto]

theorem pcOf_goto_ne (other : j ≠ i) : (s.goto i attempt pc).pcOf j = s.pcOf j := by
  simp [pcOf_goto, other]

/-- Only an attempt that goes to its reset, or comes from it, changes whether one is awaited. -/
theorem awaitsReset_of_goto (other : pc ≠ .reset) (awaits : (s.goto i attempt pc).AwaitsReset) :
    s.AwaitsReset := by
  obtain ⟨j, there⟩ := awaits
  by_cases same : j = i
  · subst same
    rw [pcOf_goto_self] at there
    exact absurd (Option.some.inj there) other
  · exact ⟨j, by rwa [pcOf_goto_ne same] at there⟩

theorem AwaitsReset.goto (idle : s.pcOf i ≠ some .reset) (awaits : s.AwaitsReset) :
    (s.goto i attempt pc).AwaitsReset := by
  obtain ⟨j, there⟩ := awaits
  have same : j ≠ i := by
    rintro rfl
    exact idle there
  exact ⟨j, by rwa [pcOf_goto_ne same]⟩

theorem Disabling.goto (idle : ¬ s.Disabling i) (disabling : s.Disabling j) :
    (s.goto i attempt pc).Disabling j := by
  obtain ⟨failures, there⟩ := disabling
  have same : j ≠ i := by
    rintro rfl
    exact idle ⟨failures, there⟩
  exact ⟨failures, by rwa [pcOf_goto_ne same]⟩

theorem disabling_of_goto (other : ∀ failures, pc ≠ .disable failures)
    (disabling : (s.goto i attempt pc).Disabling j) : s.Disabling j := by
  obtain ⟨failures, there⟩ := disabling
  by_cases same : j = i
  · subst same
    rw [pcOf_goto_self] at there
    exact absurd (Option.some.inj there) (other failures)
  · exact ⟨failures, by rwa [pcOf_goto_ne same] at there⟩

omit [DecidableEq ι] in
theorem Free.not_reset (free : s.Free i) : s.pcOf i ≠ some .reset := by
  intro there
  cases free _ there

omit [DecidableEq ι] in
theorem Free.not_disabling (free : s.Free i) : ¬ s.Disabling i := by
  rintro ⟨failures, there⟩
  cases free _ there

omit [DecidableEq ι] in
theorem not_disabling_of_at {before : Pc} (at_ : s.pcOf i = some before)
    (other : ∀ failures, before ≠ .disable failures) : ¬ s.Disabling i := by
  rintro ⟨failures, there⟩
  exact other failures (Option.mem_unique at_ there)

theorem ne_reset_of_plain (plain : pc.owes = false) : pc ≠ .reset := by
  rintro rfl
  cases plain

theorem ne_disable_of_plain (plain : pc.owes = false) (failures : Nat) : pc ≠ .disable failures := by
  rintro rfl
  cases plain

theorem known_goto (known : ∀ i, ∀ pc ∈ s.pcOf i, ∀ delivery ∈ pc.delivery,
      (s'.deliveries delivery.id).isSome)
    (own : ∀ delivery ∈ pc.delivery, (s'.deliveries delivery.id).isSome) :
    ∀ j, ∀ before ∈ (s.goto i attempt pc).pcOf j, ∀ delivery ∈ before.delivery,
      (s'.deliveries delivery.id).isSome := by
  intro j before there delivery read
  by_cases same : j = i
  · subst same
    rw [pcOf_goto_self] at there
    obtain rfl := Option.some.inj there
    exact own delivery read
  · rw [pcOf_goto_ne same] at there
    exact known j before there delivery read

omit [DecidableEq ι] in
theorem find_update {id other : Uuid} {change : Delivery → Delivery} :
    (s.update id change).deliveries other =
      if other = id then (s.deliveries id).map change else s.deliveries other := by
  by_cases same : other = id
  · simp [update, same]
  · simp [update, same]

omit [DecidableEq ι] in
theorem rows_update {id : Uuid} {change : Delivery → Delivery} (same : ∀ row, (change row).id = row.id)
    (rows : ∀ id row, s.deliveries id = some row → row.id = id) :
    ∀ other row, (s.update id change).deliveries other = some row → row.id = other := by
  intro other row there
  rw [find_update] at there
  split_ifs at there with here
  · obtain ⟨old, found, rfl⟩ := Option.map_eq_some_iff.mp there
    exact (same old).trans ((rows id old found).trans here.symm)
  · exact rows other row there

omit [DecidableEq ι] in
theorem isSome_update {id other : Uuid} {change : Delivery → Delivery}
    (there : (s.deliveries other).isSome) : ((s.update id change).deliveries other).isSome := by
  rw [find_update]
  split_ifs with here
  · simpa [← here] using there
  · exact there

omit [DecidableEq ι] in
/-- A write that makes nothing of the deliveries that are recorded as succeeded. -/
theorem succeeded_update {id : Uuid} {change : Delivery → Delivery}
    (succeeded : ∀ id, succeededOn id s.trail = true →
      ∃ row, s.deliveries id = some row ∧ row.status = .succeeded)
    (unsuccessful : (s.deliveries id).all (·.status ≠ .succeeded) = true) (other : Uuid)
    (recorded : succeededOn other s.trail = true) :
    ∃ row, (s.update id change).deliveries other = some row ∧ row.status = .succeeded := by
  obtain ⟨row, there, success⟩ := succeeded other recorded
  have apart : other ≠ id := by
    rintro rfl
    simp [there, success] at unsuccessful
  exact ⟨row, by rw [find_update, if_neg apart, there], success⟩

theorem Inv.step (inv : s.Inv disableAfterFailures) (effect : Effect disableAfterFailures s s') :
    s'.Inv disableAfterFailures := by
  cases effect with
  | @creates id fresh =>
    have others : ∀ other row, s.deliveries other = some row →
        Function.update s.deliveries id (some { id := id }) other = some row := by
      intro other row there
      have apart : other ≠ id := by
        rintro rfl
        simp [fresh] at there
      rw [Function.update_of_ne apart, there]
    refine { inv with
      succeeded := fun other recorded => ?_
      rows := fun other row there => ?_
      known := fun i pc there delivery read => ?_ }
    · obtain ⟨row, there, success⟩ := inv.succeeded other recorded
      exact ⟨row, others other row there, success⟩
    · simp only [Function.update_apply] at there
      split_ifs at there with same
      · exact Option.some.inj there ▸ same.symm
      · exact inv.rows other row there
    · obtain ⟨row, found⟩ := Option.isSome_iff_exists.mp (inv.known i pc there delivery read)
      exact Option.isSome_of_eq_some (others _ row found)
  | @moves i attempt pc free plain known =>
    refine { inv with
      always := inv.always.mono fun j => Disabling.goto free.not_disabling
      counted := fun none => inv.counted fun awaits => none (awaits.goto free.not_reset)
      known := known_goto inv.known fun delivery read => ?_
      resetting := fun awaits => inv.resetting (awaitsReset_of_goto (ne_reset_of_plain plain) awaits)
      deciding := fun j disabling => inv.deciding j
        (disabling_of_goto (ne_disable_of_plain plain) disabling) }
    rcases known delivery read with ⟨before, there, same⟩ | ⟨id, there⟩
    · exact inv.known i before there delivery same
    · rw [inv.rows id delivery there]
      exact Option.isSome_of_eq_some there
  | @fails i attempt pc id change free plain ended unsuccessful same =>
    exact {
      succeeded := succeeded_update inv.succeeded unsuccessful
      onlyThen := inv.onlyThen.cons fun j is => nomatch is
      always := inv.always.cons (fun j disabling => .inr (Disabling.goto free.not_disabling disabling))
        fun j is => nomatch is
      off := inv.off
      counted := fun none => inv.counted fun awaits => none (AwaitsReset.goto free.not_reset awaits)
      rows := rows_update same inv.rows
      known := known_goto (fun j before there delivery read =>
        isSome_update (inv.known j before there delivery read)) (by simp [ended])
      resetting := fun awaits => inv.resetting (awaitsReset_of_goto (ne_reset_of_plain plain) awaits)
      deciding := fun j disabling => inv.deciding j
        (disabling_of_goto (ne_disable_of_plain plain) disabling) }
  | @succeeds i attempt before pc delivery change at_ free read ended success next =>
    have idle := free_of_at at_ free
    have undisabling : ∀ failures, pc ≠ .disable failures := by
      rintro failures rfl
      rcases next with is | ⟨plain, -⟩
      · cases is
      · cases plain
    obtain ⟨row, there⟩ := Option.isSome_iff_exists.mp (inv.known i before at_ delivery read)
    exact {
      succeeded := fun other recorded => by
        by_cases same : other = delivery.id
        · subst same
          exact ⟨change row, by simp [goto, record, find_update, there], (success row).1⟩
        · have earlier : succeededOn other s.trail = true := by
            simpa [goto, record, update, succeededOn, Ne.symm same] using recorded
          obtain ⟨row, found, done⟩ := inv.succeeded other earlier
          exact ⟨row, by simp [goto, record, find_update, same, found], done⟩
      onlyThen := inv.onlyThen.cons fun j is => nomatch is
      always := inv.always.cons (fun j disabling => .inr (Disabling.goto idle.not_disabling disabling))
        fun j is => nomatch is
      off := inv.off
      counted := fun none => by
        rcases next with rfl | ⟨-, zero | awaits⟩
        · exact absurd ⟨i, pcOf_goto_self⟩ none
        · exact zero
        · exact absurd (AwaitsReset.goto idle.not_reset awaits) none
      rows := rows_update (fun row => (success row).2) inv.rows
      known := known_goto (fun j before there delivery read =>
        isSome_update (inv.known j before there delivery read)) (by simp [ended])
      resetting := fun _ => rfl
      deciding := fun j disabling => inv.deciding j (disabling_of_goto undisabling disabling) }
  | @resets i attempt pc at_ plain ended =>
    have zero := inv.resetting ⟨i, at_⟩
    have idle : ¬ s.Disabling i := not_disabling_of_at at_ nofun
    exact { inv with
      always := inv.always.mono fun j => Disabling.goto idle
      off := inv.off
      counted := fun _ => zero.symm
      known := known_goto inv.known (by simp [ended])
      resetting := fun _ => zero
      deciding := fun j disabling => inv.deciding j
        (disabling_of_goto (ne_disable_of_plain plain) disabling) }
  | @counts i attempt pc free settled ended next =>
    have same : s.endpoint.consecutiveFailures = failuresSince s.trail := inv.counted settled
    have unreset : pc ≠ .reset := by
      rintro rfl
      split_ifs at next
      · obtain ⟨failures, is⟩ := next
        cases is
      · cases next
    exact {
      succeeded := inv.succeeded
      onlyThen := inv.onlyThen.cons fun j is => nomatch is
      always := inv.always.cons (fun j disabling => .inr (Disabling.goto free.not_disabling disabling))
        fun j is most => by
          cases is
          rw [if_pos (by omega)] at next
          obtain ⟨failures, rfl⟩ := next
          exact ⟨failures, pcOf_goto_self⟩
      off := inv.off
      counted := fun _ => congrArg (· + 1) same
      rows := inv.rows
      known := known_goto inv.known (by simp [ended])
      resetting := fun awaits => absurd (awaitsReset_of_goto unreset awaits) settled
      deciding := fun j disabling => by
        by_cases own : i = j
        · subst own
          split_ifs at next with most
          · simpa [goto, record, updateEndpoint, Decides, ← same] using most
          · exact absurd disabling fun ⟨failures, is⟩ => by
              rw [pcOf_goto_self] at is
              exact ne_disable_of_plain next failures (Option.some.inj is)
        · obtain ⟨failures, is⟩ := disabling
          rw [pcOf_goto_ne (Ne.symm own)] at is
          simpa [goto, record, updateEndpoint, Decides, own] using inv.deciding j ⟨failures, is⟩ }
  | @disables i attempt pc failures reason at_ still plain ended =>
    have decided := (inv.deciding i ⟨failures, at_⟩).failuresSince still
    have unreset : s.pcOf i ≠ some .reset := by rw [at_]; exact nofun
    exact {
      succeeded := inv.succeeded
      onlyThen := inv.onlyThen.cons fun j is => decided
      always := inv.always.cons (fun j disabling => by
          by_cases own : j = i
          · exact .inl (congrArg Record.disabled own.symm)
          · obtain ⟨others, is⟩ := disabling
            exact .inr ⟨others, (pcOf_goto_ne own).trans is⟩)
        fun j is => nomatch is
      off := fun _ => rfl
      counted := fun none => inv.counted fun awaits => none (AwaitsReset.goto unreset awaits)
      rows := inv.rows
      known := known_goto inv.known (by simp [ended])
      resetting := fun awaits => inv.resetting (awaitsReset_of_goto (ne_reset_of_plain plain) awaits)
      deciding := fun j disabling => inv.deciding j
        (disabling_of_goto (ne_disable_of_plain plain) disabling) }
  | @redelivers id =>
    exact {
      succeeded := fun other recorded => by
        simp only [record, succeededOn, Bool.and_eq_true, decide_eq_true_eq] at recorded
        obtain ⟨row, found, done⟩ := inv.succeeded other recorded.2
        exact ⟨row, by simp [record, find_update, Ne.symm recorded.1, found], done⟩
      onlyThen := inv.onlyThen.cons fun j is => nomatch is
      always := inv.always.cons (fun j disabling => .inr disabling) fun j is => nomatch is
      off := inv.off
      counted := inv.counted
      rows := rows_update (fun _ => rfl) inv.rows
      known := fun i pc there delivery read => isSome_update (inv.known i pc there delivery read)
      resetting := inv.resetting
      deciding := inv.deciding }
  | enables =>
    exact { inv with
      onlyThen := inv.onlyThen.cons fun j is => nomatch is
      always := inv.always.cons (fun j disabling => .inr disabling) fun j is => nomatch is
      off := fun off => by simp [record, disabledOn] at off
      counted := fun _ => rfl
      resetting := fun _ => rfl }
  | @switchesOff change off =>
    exact { inv with
      off := fun _ => (off s.endpoint).1
      counted := fun none => (off s.endpoint).2.trans (inv.counted none) }
  | @dies i attempt at_ zero =>
    have idle : ¬ s.Disabling i := not_disabling_of_at at_ nofun
    exact { inv with
      always := inv.always.mono fun j => Disabling.goto idle
      counted := fun _ => zero.trans (inv.resetting ⟨i, at_⟩).symm
      known := known_goto inv.known (by simp [Pc.delivery])
      resetting := fun _ => inv.resetting ⟨i, at_⟩
      deciding := fun j disabling => inv.deciding j (disabling_of_goto (ne_disable_of_plain rfl) disabling) }

/-! ## Runs -/

/-- In every run of attempts that write over nothing they have not seen. -/
theorem exact_of_orderly (reaches : Reaches disableAfterFailures Orderly start s) :
    s.Exact disableAfterFailures :=
  (reaches.invariant (Inv disableAfterFailures)
    (fun _ _ _ inv orderly stepped => inv.step (effect_of_step orderly stepped)) .start).toExact

/-- One attempt, to the end: it reads, the receiver answers, and what follows is written. -/
def whole (i : Fin 3) (deliveryId : Uuid) (result : SendResult) (writes : Nat) : List (Action (Fin 3)) :=
  [.attempt i deliveryId true, .advance i 0, .advance i 0, .respond i result] ++
    List.replicate writes (.advance i 0)

/-- Two deliveries fail one after the other. -/
def inOrder : List (Action (Fin 3)) :=
  [.create 1, .create 2] ++ whole 0 1 (.failed (some 500) "HTTP 500: ") 2 ++
    whole 1 2 (.failed none "Request failed: timeout") 3

/-- The second failure of two disables the endpoint. -/
theorem exact_after_failures : ∃ s : System (Fin 3), Reaches 2 Orderly start s ∧ s.Exact 2 ∧
    s.endpoint.disabledReason = some "Disabled after 2 failed deliveries in a row" := by
  have ran : (Schedule.run (step 2) Orderly inOrder start).map (·.endpoint.disabledReason) =
      some (some "Disabled after 2 failed deliveries in a row") := by
    decide +kernel
  obtain ⟨s, ran, reason⟩ := Option.map_eq_some_iff.mp ran
  have run := Schedule.reaches_of_run ran
  exact ⟨s, run, exact_of_orderly run, reason⟩

/-- The queue hands a delivery out twice; one attempt succeeds and the other, slower one fails. -/
def handedOutTwice : List (Action (Fin 3)) :=
  [.create 1, .attempt 0 1 false, .attempt 1 1 false, .advance 0 0, .advance 1 0, .advance 0 0,
    .advance 1 0, .respond 0 (.ok 200), .advance 0 0, .respond 1 (.failed (some 409) "HTTP 409: "),
    .advance 1 0]

/-- A delivery is sent while another one fails for good, so its attempt has read no failures. -/
def sentMeanwhile : List (Action (Fin 3)) :=
  [.create 1, .create 2, .create 3, .attempt 0 1 true, .advance 0 0, .advance 0 0] ++
    whole 1 2 (.failed (some 500) "HTTP 500: ") 2 ++ [.respond 0 (.ok 200), .advance 0 0] ++
    whole 2 3 (.failed (some 500) "HTTP 500: ") 3

/-- The first delivery is pending again although its success was recorded, and the endpoint is
disabled after two failures although a success was recorded between them. -/
theorem stale_attempts_write_over :
    (∃ s : System (Fin 3), Reaches 2 Schedule.Any start s ∧ succeededOn 1 s.trail = true ∧
      ¬ ∃ row, s.deliveries 1 = some row ∧ row.status = .succeeded) ∧
    ∃ s : System (Fin 3), Reaches 2 Schedule.Any start s ∧ ¬ OnlyThen 2 s.trail := by
  constructor
  · have ran : (Schedule.run (step 2) Schedule.Any handedOutTwice start).map (fun s =>
        (succeededOn 1 s.trail, (s.deliveries 1).map (·.status))) = some (true, some .pending) := by
      decide +kernel
    obtain ⟨s, ran, sees⟩ := Option.map_eq_some_iff.mp ran
    obtain ⟨recorded, pending⟩ := Prod.mk.inj sees
    refine ⟨s, Schedule.reaches_of_run ran, recorded, ?_⟩
    rintro ⟨row, there, success⟩
    simp [there, success] at pending
  · have ran : (Schedule.run (step 2) Schedule.Any sentMeanwhile start).map (·.trail) =
        some [.disabled 2, .finalFailure 2, .unsuccessful 3, .succeeded 1, .finalFailure 1,
          .unsuccessful 2] := by
      decide +kernel
    obtain ⟨s, ran, trail⟩ := Option.map_eq_some_iff.mp ran
    refine ⟨s, Schedule.reaches_of_run ran, fun only => ?_⟩
    have most := only [] 2 _ trail
    simp [failuresSince] at most

end System

end Finstack.OutboundWebhooks.Deliveries
