import Mathlib.Data.List.Basic
import Mathlib.Logic.Relation
import Mathlib.Order.Nat
import Mathlib.Tactic.SplitIfs

/-! # Sending a request at most once

Several callers may send the same request to a counterparty that does not recognise repeats. They
share a mark of the last submission. A caller is granted a submission when the mark is absent or
older than `window`, and sets it; one that finds an earlier mark must first have been told, during
its own call, that nothing has been accepted. Every call, with everything its request still brings
about, is over within `span`. With `2 * span ≤ window` at most one request is accepted, and whoever
sends again has asked after every earlier call was over.
-/

namespace Finstack.Foundation.Submission

/-- How far a granted submission has come. -/
inductive Phase where
  | granted
  | sent
  | accepted
  /-- Sent, and never to be accepted. -/
  | refused
deriving DecidableEq, Repr

/-- A request is sent, and then accepted or refused. -/
inductive Phase.Next : Phase → Phase → Prop
  | send : Next .granted .sent
  | accept : Next .sent .accepted
  | refuse : Next .sent .refused

theorem Phase.Next.ne_granted {phase next : Phase} (step : phase.Next next) : next ≠ .granted := by
  cases step <;> simp

/-- May the request still be accepted? -/
def Phase.isOpen : Phase → Bool
  | .granted | .sent => true
  | .accepted | .refused => false

/-- What became of a request that was sent. -/
inductive Request where
  | inFlight
  | accepted
  | refused
deriving DecidableEq, Repr

def Request.phase : Request → Phase
  | .inFlight => .sent
  | .accepted => .accepted
  | .refused => .refused

/-- A submission somebody was granted. -/
structure Grant (ι : Type) where
  caller : ι
  /-- When the call began. -/
  start : Nat
  /-- When it was last told that nothing has been accepted. -/
  asked : Option Nat
  time : Nat
  phase : Phase

/-- A call that has not been granted a submission. -/
structure Waiting where
  start : Nat
  asked : Option Nat

structure State (ι : Type) where
  now : Nat
  waiting : ι → Option Waiting
  /-- Every submission granted so far, the latest first. -/
  grants : List (Grant ι)

variable {ι : Type} {window span : Nat}

namespace State

/-- The shared mark: when a submission was last granted. -/
def mark (s : State ι) : Option Nat := s.grants.head?.map (·.time)

/-- How many requests were accepted. -/
def accepted (s : State ι) : Nat := s.grants.countP (·.phase = .accepted)

/-- Nothing has happened yet. -/
def start (now : Nat) : State ι := ⟨now, fun _ => none, []⟩

end State

variable [DecidableEq ι]

/-- Calls only act while they last. -/
inductive Step (window span : Nat) (s : State ι) : State ι → Prop
  | tick {now : Nat} (later : s.now ≤ now) : Step window span s { s with now }
  | begin {i : ι} (new : s.waiting i = none) : Step window span s
      { s with waiting := Function.update s.waiting i (some ⟨s.now, none⟩) }
  | ask {i : ι} {call : Waiting} (running : s.waiting i = some call)
      (lasts : s.now < call.start + span) (nothing : s.accepted = 0) : Step window span s
      { s with waiting := Function.update s.waiting i (some { call with asked := some s.now }) }
  | grant {i : ι} {call : Waiting} (running : s.waiting i = some call)
      (lasts : s.now < call.start + span)
      (free : ∀ t, s.mark = some t → t + window < s.now ∧ call.asked ≠ none) : Step window span s
      { s with
        waiting := Function.update s.waiting i none
        grants := ⟨i, call.start, call.asked, s.now, .granted⟩ :: s.grants }
  | move {later earlier : List (Grant ι)} {g : Grant ι} {phase : Phase}
      (here : s.grants = later ++ g :: earlier) (lasts : s.now < g.start + span)
      (next : g.phase.Next phase) : Step window span s
      { s with grants := later ++ { g with phase } :: earlier }

/-- True of every state a run reaches. -/
structure Inv (window span : Nat) (s : State ι) : Prop where
  calls : ∀ i call, s.waiting i = some call →
    call.start ≤ s.now ∧ ∀ a, call.asked = some a → call.start ≤ a ∧ a ≤ s.now
  times : ∀ g ∈ s.grants, g.start ≤ g.time ∧ g.time < g.start + span ∧ g.time ≤ s.now ∧
    ∀ a, g.asked = some a → g.start ≤ a
  apart : s.grants.Pairwise fun g earlier => earlier.time + window < g.time
  again : ∀ later g earlier, s.grants = later ++ g :: earlier → earlier ≠ [] → g.asked ≠ none
  once : s.accepted ≤ 1
  /-- While the latest submission is open nothing has been accepted. -/
  fresh : ∀ g earlier, s.grants = g :: earlier → g.phase.isOpen → s.accepted = 0
  /-- An answer stays true as long as every submission was over when the call began. -/
  answered : ∀ i call, s.waiting i = some call → call.asked ≠ none →
    (∀ t, s.mark = some t → t + span < call.start) → s.accepted = 0

variable {s s' : State ι}

omit [DecidableEq ι] in
theorem Inv.start (now : Nat) : Inv window span (State.start now : State ι) where
  calls := by simp [State.start]
  times := by simp [State.start]
  apart := List.Pairwise.nil
  again := by simp [State.start]
  once := Nat.zero_le 1
  fresh := by simp [State.start]
  answered := by simp [State.start]

omit [DecidableEq ι] in
/-- Only the latest submission can be under way. -/
theorem Inv.latest (enough : 2 * span ≤ window) (inv : Inv window span s)
    {later earlier : List (Grant ι)} {g : Grant ι} (here : s.grants = later ++ g :: earlier)
    (lasts : s.now < g.start + span) : later = [] := by
  cases later with
  | nil => rfl
  | cons newer rest =>
    have apart := inv.apart
    rw [here, List.cons_append, List.pairwise_cons] at apart
    have gap := apart.1 g (by simp)
    have own := inv.times g (by simp [here])
    have recent := inv.times newer (by simp [here])
    omega

omit [DecidableEq ι] in
/-- A submission that was granted without asking was the first. -/
theorem Inv.first (inv : Inv window span s) {later earlier : List (Grant ι)} {g : Grant ι}
    (here : s.grants = later ++ g :: earlier) (unasked : g.asked = none) : earlier = [] := by
  by_contra more
  exact inv.again later g earlier here more unasked

omit [DecidableEq ι] in
/-- Whoever was granted a submission after others asked when all the others were over. -/
theorem Inv.preceded (enough : 2 * span ≤ window) (inv : Inv window span s)
    {later earlier : List (Grant ι)} {g : Grant ι} (here : s.grants = later ++ g :: earlier)
    (more : earlier ≠ []) : ∃ a, g.asked = some a ∧ ∀ e ∈ earlier, e.start + span ≤ a := by
  obtain ⟨a, asked⟩ := Option.ne_none_iff_exists'.mp (inv.again later g earlier here more)
  refine ⟨a, asked, fun e member => ?_⟩
  have apart := inv.apart
  rw [here, List.pairwise_append, List.pairwise_cons] at apart
  have gap := apart.2.1.1 e member
  have own := inv.times g (by simp [here])
  have theirs := inv.times e (by simp [here, member])
  have answer := own.2.2.2 a asked
  omega

omit [DecidableEq ι] in
private theorem accepted_move {later earlier : List (Grant ι)} {g : Grant ι} {phase : Phase}
    (here : s.grants = later ++ g :: earlier) (next : g.phase.Next phase) :
    ({ s with grants := later ++ { g with phase } :: earlier } : State ι).accepted =
      s.accepted + if phase = .accepted then 1 else 0 := by
  have before : g.phase ≠ .accepted := by
    intro already
    rw [already] at next
    cases next
  simp only [State.accepted, here, List.countP_append, List.countP_cons, before, decide_false,
    Bool.false_eq_true, if_false, decide_eq_true_eq]
  omega

/-- What a submission's next phase leaves as it was. -/
theorem Step.exists_move {g : Grant ι} {phase : Phase} (member : g ∈ s.grants)
    (lasts : s.now < g.start + span) (next : g.phase.Next phase) :
    ∃ s', Step window span s s' ∧ s'.now = s.now ∧ s'.waiting = s.waiting ∧ s'.mark = s.mark ∧
      s'.accepted = (s.accepted + if phase = .accepted then 1 else 0) ∧
      { g with phase } ∈ s'.grants ∧ ∀ e ∈ s.grants, e ≠ g → e ∈ s'.grants := by
  obtain ⟨later, earlier, here⟩ := List.append_of_mem member
  refine ⟨_, .move here lasts next, rfl, rfl, ?_, accepted_move here next, by simp, ?_⟩
  · cases later <;> simp [State.mark, here]
  · intro e member' other
    rw [here, List.mem_append, List.mem_cons] at member'
    rcases member' with new | rfl | old
    · exact List.mem_append_left _ new
    · exact absurd rfl other
    · exact List.mem_append_right _ (List.mem_cons_of_mem _ old)

/-- What one step preserves. -/
theorem Inv.step (enough : 2 * span ≤ window) (inv : Inv window span s)
    (step : Step window span s s') : Inv window span s' := by
  cases step with
  | tick later =>
    refine ⟨fun i call running => ?_, fun g member => ?_, inv.apart, inv.again, inv.once, inv.fresh,
      inv.answered⟩
    · obtain ⟨started, asked⟩ := inv.calls i call running
      exact ⟨started.trans later, fun a answer => ⟨(asked a answer).1, (asked a answer).2.trans later⟩⟩
    · obtain ⟨started, short, past, asked⟩ := inv.times g member
      exact ⟨started, short, past.trans later, asked⟩
  | @begin i new =>
    refine ⟨fun j call running => ?_, inv.times, inv.apart, inv.again, inv.once, inv.fresh,
      fun j call running asked ended => ?_⟩
    · rcases eq_or_ne j i with rfl | other
      · obtain rfl : _ = call := by simpa using running
        exact ⟨Nat.le_refl _, by simp⟩
      · exact inv.calls j call (by simpa [other] using running)
    · rcases eq_or_ne j i with rfl | other
      · obtain rfl : _ = call := by simpa using running
        exact (asked rfl).elim
      · exact inv.answered j call (by simpa [other] using running) asked ended
  | @ask i call running lasts nothing =>
    refine ⟨fun j other running' => ?_, inv.times, inv.apart, inv.again, inv.once, inv.fresh,
      fun _ _ _ _ _ => nothing⟩
    rcases eq_or_ne j i with rfl | different
    · obtain rfl : _ = other := by simpa using running'
      have started := (inv.calls _ call running).1
      exact ⟨started, by rintro a ⟨⟩; exact ⟨started, Nat.le_refl _⟩⟩
    · exact inv.calls j other (by simpa [different] using running')
  | @grant i call running lasts free =>
    obtain ⟨started, asked⟩ := inv.calls i call running
    have nothing : s.accepted = 0 := by
      cases marked : s.mark with
      | none =>
        have empty : s.grants = [] := by simpa [State.mark] using marked
        simp [State.accepted, empty]
      | some t =>
        refine inv.answered i call running (free t marked).2 fun u same => ?_
        obtain rfl := Option.some.inj (marked.symm.trans same)
        have gap := (free t marked).1
        omega
    have count : State.accepted { s with
        waiting := Function.update s.waiting i none
        grants := ⟨i, call.start, call.asked, s.now, .granted⟩ :: s.grants } = s.accepted := by
      simp [State.accepted]
    have kept : ∀ j other, Function.update s.waiting i none j = some other →
        s.waiting j = some other := by
      intro j other running'
      rcases eq_or_ne j i with rfl | different
      · simp at running'
      · simpa [different] using running'
    refine ⟨fun j other running' => inv.calls j other (kept j other running'), fun g member => ?_, ?_,
      fun later g earlier here more => ?_, by omega, fun _ _ _ _ => by omega,
      fun _ _ _ _ _ => by omega⟩
    · rcases List.mem_cons.mp member with rfl | old
      · exact ⟨started, lasts, Nat.le_refl _, fun a answer => (asked a answer).1⟩
      · exact inv.times g old
    · refine List.pairwise_cons.mpr ⟨fun e member => ?_, inv.apart⟩
      -- the latest of the others is old enough, and the rest are older
      obtain ⟨head, rest, list⟩ := List.exists_cons_of_ne_nil (List.ne_nil_of_mem member)
      have gap := (free head.time (by simp [State.mark, list])).1
      have sorted := inv.apart
      rw [list] at member sorted
      rcases List.mem_cons.mp member with rfl | older
      · exact gap
      · have before := (List.pairwise_cons.mp sorted).1 e older
        dsimp only
        omega
    · rcases List.cons_eq_append_iff.mp here with ⟨rfl, same⟩ | ⟨rest, rfl, old⟩
      · obtain ⟨rfl, rfl⟩ := List.cons.inj same
        obtain ⟨head, rest, list⟩ := List.exists_cons_of_ne_nil more
        exact (free head.time (by simp [State.mark, list])).2
      · exact inv.again rest g earlier old more
  | @move later earlier g phase here lasts next =>
    obtain rfl := inv.latest enough here lasts
    have count := accepted_move here next
    have nothing : s.accepted = 0 := by
      refine inv.fresh g earlier here ?_
      cases own : g.phase <;> rw [own] at next <;> cases next <;> rfl
    have mark : State.mark { s with grants := { g with phase } :: earlier } = s.mark := by
      simp [State.mark, here]
    have apart := inv.apart
    rw [here] at apart
    refine ⟨inv.calls, fun e member => ?_, ?_, fun later' e earlier' here' more => ?_, ?_,
      fun e earlier' here' opened => ?_, fun i call running asked ended => ?_⟩
    · rcases List.mem_cons.mp member with rfl | old
      · exact inv.times g (by simp [here])
      · exact inv.times e (by simp [here, old])
    · exact List.pairwise_cons.mpr ⟨(List.pairwise_cons.mp apart).1, (List.pairwise_cons.mp apart).2⟩
    · rcases List.cons_eq_append_iff.mp here' with ⟨rfl, same⟩ | ⟨rest, rfl, old⟩
      · obtain ⟨rfl, rfl⟩ := List.cons.inj same
        exact inv.again [] g earlier' here more
      · exact inv.again (g :: rest) e earlier' (by rw [here]; simp [old]) more
    · rw [List.nil_append] at count
      rw [List.nil_append, count]
      split_ifs <;> omega
    · obtain ⟨rfl, rfl⟩ := List.cons.inj here'
      rw [List.nil_append] at count
      rw [List.nil_append, count, nothing, if_neg]
      rintro rfl
      cases opened
    · -- the call began before this submission was over
      have own := inv.times g (by simp [here])
      have started := (inv.calls i call running).1
      have late := ended g.time (by simp [State.mark])
      omega

/-- What a whole run preserves. -/
theorem Inv.run (enough : 2 * span ≤ window) (inv : Inv window span s)
    (run : Relation.ReflTransGen (Step window span) s s') : Inv window span s' := by
  induction run with
  | refl => exact inv
  | tail _ step ih => exact ih.step enough step

end Finstack.Foundation.Submission
