import Mathlib.Logic.Function.Basic
import Mathlib.Logic.Relation
import Mathlib.Order.Nat

/-! # Independent objects under one clock

Each object moves on its own, and what it may do depends on the time.
-/

namespace Finstack.Foundation

/-- The time, and every object. -/
structure Clocked (κ σ : Type) where
  now : Nat
  object : κ → σ

namespace Clocked

variable {κ σ : Type} [DecidableEq κ] {Move : Nat → σ → σ → Prop} {c c' : Clocked κ σ}

/-- Time passes, or one object moves. -/
inductive Step (Move : Nat → σ → σ → Prop) (c : Clocked κ σ) : Clocked κ σ → Prop
  | tick {now : Nat} (later : c.now ≤ now) : Step Move c { c with now }
  | move {k : κ} {s : σ} (moved : Move c.now (c.object k) s) :
      Step Move c { c with object := Function.update c.object k s }

/-- Everything that can happen. -/
def Reaches (Move : Nat → σ → σ → Prop) : Clocked κ σ → Clocked κ σ → Prop :=
  Relation.ReflTransGen (Step Move)

/-- One object moves, any number of times. -/
theorem reaches_of_moves {k : κ} {s : σ}
    (moves : Relation.ReflTransGen (Move c.now) (c.object k) s) :
    Reaches Move c { c with object := Function.update c.object k s } := by
  induction moves with
  | refl => rw [Function.update_eq_self]; exact .refl
  | @tail s s' _ moved ih =>
    refine ih.tail ?_
    have step : Step Move { c with object := Function.update c.object k s } _ :=
      .move (k := k) (by simpa using moved)
    simpa using step

/-- What time and every move preserve of one object, holds of it in every run. -/
theorem Reaches.invariant (Inv : Nat → σ → Prop) (run : Reaches Move c c')
    (tick : ∀ now later s, now ≤ later → Inv now s → Inv later s)
    (move : ∀ now s s', Move now s s' → Inv now s → Inv now s') {k : κ}
    (holds : Inv c.now (c.object k)) : Inv c'.now (c'.object k) := by
  induction run with
  | refl => exact holds
  | @tail d d' _ step ih =>
    cases step with
    | tick later => exact tick d.now _ _ later ih
    | @move j s moved =>
      rcases eq_or_ne k j with rfl | other
      · simpa using move d.now _ s moved ih
      · simpa [other] using ih

end Clocked

end Finstack.Foundation
