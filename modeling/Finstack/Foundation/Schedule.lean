import Mathlib.Algebra.Ring.Nat
import Mathlib.Logic.Relation
import Mathlib.Tactic.SplitIfs

/-! # Schedules

A system by what each action makes of its state, or that it has to wait. A run takes actions in any
order, each in a state that admits it.
-/

namespace Finstack.Foundation.Schedule

variable {α σ : Type} {step : α → σ → Option σ} {Admits : α → σ → Prop} {s s' s'' : σ}

/-- An action that is admitted and need not wait. -/
def Step (step : α → σ → Option σ) (Admits : α → σ → Prop) (s s' : σ) : Prop :=
  ∃ a, Admits a s ∧ step a s = some s'

/-- Everything that can happen. -/
def Reaches (step : α → σ → Option σ) (Admits : α → σ → Prop) : σ → σ → Prop :=
  Relation.ReflTransGen (Step step Admits)

/-- Any action at any time. -/
def Any (_ : α) (_ : σ) : Prop := True

instance (a : α) (s : σ) : Decidable (Any a s) := .isTrue trivial

/-- A run on fixed inputs numbers its two callers, or its three. -/
scoped instance neZero_two : NeZero (2 : Nat) := ⟨by decide⟩

scoped instance neZero_three : NeZero (3 : Nat) := ⟨by decide⟩

/-- These actions one after another. -/
def run (step : α → σ → Option σ) (Admits : α → σ → Prop) [∀ a s, Decidable (Admits a s)] :
    List α → σ → Option σ
  | [], s => some s
  | a :: as, s => if Admits a s then (step a s).bind (run step Admits as) else none

theorem reaches_of_run [∀ a s, Decidable (Admits a s)] {actions : List α}
    (ran : run step Admits actions s = some s') : Reaches step Admits s s' := by
  induction actions generalizing s with
  | nil => cases ran; exact .refl
  | cons a as ih =>
    unfold run at ran
    split_ifs at ran with admits
    obtain ⟨middle, first, rest⟩ := Option.bind_eq_some_iff.mp ran
    exact (ih rest).head ⟨a, admits, first⟩

/-- A run in two parts, with what is seen of the state between them and of the last one. -/
theorem reaches_of_runs [∀ a s, Decidable (Admits a s)] {first second : List α} {γ : Type}
    {see : σ → σ → γ} {seen : γ}
    (ran : ((run step Admits first s).bind fun m =>
      (run step Admits second m).map fun e => see m e) = some seen) :
    ∃ m e, Reaches step Admits s m ∧ Reaches step Admits m e ∧ see m e = seen := by
  obtain ⟨m, left, rest⟩ := Option.bind_eq_some_iff.mp ran
  obtain ⟨e, right, sees⟩ := Option.map_eq_some_iff.mp rest
  exact ⟨m, e, reaches_of_run left, reaches_of_run right, sees⟩

/-- What every admitted action preserves holds in every state of a run. -/
theorem Reaches.invariant (reaches : Reaches step Admits s s') (Inv : σ → Prop)
    (keeps : ∀ a s s', Inv s → Admits a s → step a s = some s' → Inv s') (holds : Inv s) :
    Inv s' := by
  induction reaches with
  | refl => exact holds
  | tail _ last ih =>
    obtain ⟨a, admits, stepped⟩ := last
    exact keeps a _ _ ih admits stepped

/-- What holds now and did not hold at first came about in some step of the run. -/
theorem Reaches.became (reaches : Reaches step Admits s s') {P : σ → Prop} (first : ¬ P s)
    (now : P s') : ∃ m m', Reaches step Admits s m ∧ Step step Admits m m' ∧
      Reaches step Admits m' s' ∧ ¬ P m ∧ P m' := by
  induction reaches with
  | refl => exact absurd now first
  | @tail m m' before last ih =>
    by_cases already : P m
    · obtain ⟨n, n', left, stepped, right, became⟩ := ih already
      exact ⟨n, n', left, stepped, right.tail last, became⟩
    · exact ⟨m, m', before, last, .refl, already, now⟩

theorem Reaches.mono {Admits' : α → σ → Prop} (reaches : Reaches step Admits s s')
    (admits : ∀ a s, Admits a s → Admits' a s) : Reaches step Admits' s s' := by
  refine Relation.ReflTransGen.mono ?_ _ _ reaches
  rintro s s' ⟨a, admitted, stepped⟩
  exact ⟨a, admits a s admitted, stepped⟩

end Finstack.Foundation.Schedule
