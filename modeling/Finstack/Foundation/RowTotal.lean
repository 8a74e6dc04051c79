import Mathlib.Algebra.Order.BigOperators.Group.List
import Mathlib.Algebra.Order.Ring.Int
import Mathlib.Data.List.Nodup

/-! # Totals over rows

What the rows under some keys add up to, as far as they satisfy a predicate, and how the total moves
with one row.
-/

namespace Finstack.Foundation

variable {κ ρ : Type} {p q : ρ → Bool} {f : ρ → Int} {rows rows' : κ → Option ρ} {keys : List κ}

/-- What a row adds. -/
def worth (p : ρ → Bool) (f : ρ → Int) : Option ρ → Int
  | none => 0
  | some r => if p r then f r else 0

def total (p : ρ → Bool) (f : ρ → Int) (rows : κ → Option ρ) (keys : List κ) : Int :=
  (keys.map fun k => worth p f (rows k)).sum

@[simp] theorem worth_none : worth p f none = 0 := rfl

theorem worth_of_pos {r : ρ} (counts : p r = true) : worth p f (some r) = f r :=
  if_pos counts

theorem worth_of_neg {r : ρ} (counts : p r = false) : worth p f (some r) = 0 :=
  if_neg (Bool.eq_false_iff.mp counts)

/-- The total of what a query finds. -/
theorem sum_filterMap (keys : List κ) :
    (((keys.filterMap rows).filter p).map f).sum = total p f rows keys := by
  induction keys with
  | nil => rfl
  | cons k keys ih =>
    cases row : rows k with
    | none => simpa [total, row] using ih
    | some r =>
      cases counts : p r with
      | false => simpa [total, row, counts, worth_of_neg counts] using ih
      | true => simpa [total, row, counts, worth_of_pos counts] using ih

theorem total_mono (less : ∀ k ∈ keys, worth p f (rows' k) ≤ worth q f (rows k)) :
    total p f rows' keys ≤ total q f rows keys :=
  List.sum_le_sum less

/-- One row adds at most this much. -/
theorem total_le_add {extra : Int} {k : κ} (nodup : keys.Nodup) (nonneg : 0 ≤ extra)
    (here : worth p f (rows' k) ≤ worth q f (rows k) + extra)
    (elsewhere : ∀ l ∈ keys, l ≠ k → worth p f (rows' l) ≤ worth q f (rows l)) :
    total p f rows' keys ≤ total q f rows keys + extra := by
  induction keys with
  | nil => simpa [total] using nonneg
  | cons l keys ih =>
    obtain ⟨fresh, nodup⟩ := List.nodup_cons.mp nodup
    have rest : ∀ m ∈ keys, m ≠ k → worth p f (rows' m) ≤ worth q f (rows m) :=
      fun m member => elsewhere m (List.mem_cons_of_mem l member)
    simp only [total, List.map_cons, List.sum_cons]
    by_cases same : l = k
    · subst same
      have others : total p f rows' keys ≤ total q f rows keys := by
        apply total_mono
        intro m member
        apply rest m member
        rintro rfl
        exact fresh member
      simp only [total] at others
      omega
    · have first := elsewhere l List.mem_cons_self same
      have others := ih nodup rest
      simp only [total] at others
      omega

end Finstack.Foundation
