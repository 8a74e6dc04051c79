import Mathlib.Data.List.Basic

/-! # Folds whose steps each belong to one key

A loop over records that works on the part of the state its record belongs to. What the loop does
to the part of one key is what the records of that key do to it, in their order: the others may
stand anywhere between them.
-/

namespace Finstack.Foundation

variable {S V X K : Type} [DecidableEq K]

/-- The part of the state that belongs to a key, after a loop. -/
theorem foldl_part {step : S → X → S} {own : V → X → V} {part : S → V} {key : X → K} {k : K}
    (here : ∀ s x, key x = k → part (step s x) = own (part s) x)
    (elsewhere : ∀ s x, key x ≠ k → part (step s x) = part s) (xs : List X) (s : S) :
    part (xs.foldl step s) = (xs.filter fun x => key x = k).foldl own (part s) := by
  induction xs generalizing s with
  | nil => rfl
  | cons x xs ih =>
    rw [List.foldl_cons, ih]
    by_cases same : key x = k
    · rw [List.filter_cons_of_pos (by simpa using same), List.foldl_cons, here s x same]
    · rw [List.filter_cons_of_neg (by simpa using same), elsewhere s x same]

theorem bind_eq_ok {E A B : Type} {x : Except E A} {f : A → Except E B} {b : B} :
    x >>= f = .ok b ↔ ∃ a, x = .ok a ∧ f a = .ok b := by
  cases x with
  | error e => simp [bind, Except.bind]
  | ok a => simp [bind, Except.bind]

/-- A loop whose steps can fail and that leaves a part of the state as it is. -/
theorem foldlM_part {E : Type} {step : S → X → Except E S} {part : S → V} {xs : List X}
    (elsewhere : ∀ x ∈ xs, ∀ s s', step s x = .ok s' → part s' = part s) {s s' : S}
    (ran : xs.foldlM step s = .ok s') : part s' = part s := by
  induction xs generalizing s with
  | nil =>
    cases ran
    rfl
  | cons x xs ih =>
    rw [List.foldlM_cons] at ran
    obtain ⟨t, first, rest⟩ := bind_eq_ok.mp ran
    rw [ih (fun y mem => elsewhere y (List.mem_cons_of_mem _ mem)) rest]
    exact elsewhere x List.mem_cons_self s t first

end Finstack.Foundation
