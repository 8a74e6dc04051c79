import Mathlib.Algebra.BigOperators.Group.Finset.Basic
import Mathlib.Algebra.Order.BigOperators.Group.Finset
import Mathlib.Data.Fintype.Basic
import Finstack.Foundation.Table

/-! # Totals over a table

The sum of a column as a sum over all keys, where a key without a row adds nothing: it moves with one
row, and is compared row by row.
-/

namespace Finstack.Foundation.Table

variable {R K : Type} [Keyed R K] [DecidableEq K] [Fintype K] {t t' : Table R} {f g : R → Int} {k : K}

/-- What the row under a key adds. -/
def worth (t : Table R) (f : R → Int) (k : K) : Int := (t.find? k).elim 0 f

omit [Fintype K] in
theorem worth_of_find? {r : R} (found : t.find? k = some r) : t.worth f k = f r := by
  rw [worth, found, Option.elim_some]

omit [Fintype K] in
theorem worth_of_none (absent : t.find? k = none) : t.worth f k = 0 := by
  rw [worth, absent, Option.elim_none]

omit [Fintype K] in
theorem worth_nonneg (nonneg : ∀ r ∈ t, 0 ≤ f r) (k : K) : 0 ≤ t.worth f k := by
  cases found : t.find? k with
  | none => rw [worth_of_none found]
  | some r =>
    rw [worth_of_find? found]
    exact nonneg r (find?_some found).1

omit [DecidableEq K] [Fintype K] in
/-- What a query sums, row by row. -/
theorem sum_filter (t : Table R) (p : R → Bool) (f : R → Int) :
    ((t.rows.filter p).map f).sum = t.sum fun r => if p r then f r else 0 := by
  unfold sum
  induction t.rows with
  | nil => rfl
  | cons r rest ih => cases counts : p r <;> simp [counts, ih]

theorem sum_eq_worth (t : Table R) (f : R → Int) : t.sum f = ∑ k, t.worth f k := by
  have rows : t.sum f = ((t.rows.map key).map (t.worth f)).sum := by
    rw [sum, List.map_map]
    refine congrArg List.sum (List.map_congr_left fun r member => ?_)
    exact (worth_of_find? (find?_of_mem member)).symm
  rw [rows, ← List.sum_toFinset _ t.nodup]
  refine Finset.sum_subset (Finset.subset_univ _) fun k _ other => worth_of_none ?_
  by_contra present
  obtain ⟨r, found⟩ := Option.ne_none_iff_exists'.mp present
  obtain ⟨member, rfl⟩ := find?_some found
  exact other (List.mem_toFinset.mpr (List.mem_map.mpr ⟨r, member, rfl⟩))

/-- Only one row adds something else. -/
theorem sum_differ (k : K) (elsewhere : ∀ l, l ≠ k → t'.worth g l = t.worth f l) :
    t'.sum g = t.sum f + (t'.worth g k - t.worth f k) := by
  rw [sum_eq_worth, sum_eq_worth, ← Finset.add_sum_erase _ _ (Finset.mem_univ k),
    ← Finset.add_sum_erase _ (t.worth f) (Finset.mem_univ k)]
  have rest : ∑ l ∈ Finset.univ.erase k, t'.worth g l = ∑ l ∈ Finset.univ.erase k, t.worth f l :=
    Finset.sum_congr rfl fun l member => elsewhere l (Finset.ne_of_mem_erase member)
  rw [rest]
  ring

/-- Only one row of the same table adds something else. -/
theorem sum_differ_row {r : R} (member : r ∈ t) (others : ∀ s ∈ t, s ≠ r → g s = f s) :
    t.sum g = t.sum f + (g r - f r) := by
  have found : t.find? (key r) = some r := find?_of_mem member
  rw [sum_differ (t := t) (f := f) (key r), worth_of_find? found, worth_of_find? found]
  intro l other
  cases there : t.find? l with
  | none => rw [worth_of_none there, worth_of_none there]
  | some s =>
    obtain ⟨listed, rfl⟩ := find?_some there
    rw [worth_of_find? there, worth_of_find? there]
    exact others s listed fun same => other (congrArg key same)

theorem sum_alike (each : ∀ k, t'.worth g k = t.worth f k) : t'.sum g = t.sum f := by
  rw [sum_eq_worth, sum_eq_worth]
  exact Finset.sum_congr rfl fun k _ => each k

theorem sum_le (each : ∀ k, t'.worth g k ≤ t.worth f k) : t'.sum g ≤ t.sum f := by
  rw [sum_eq_worth, sum_eq_worth]
  exact Finset.sum_le_sum fun k _ => each k

/-- A row adds no more than all of them. -/
theorem le_sum (nonneg : ∀ r ∈ t, 0 ≤ f r) {r : R} (member : r ∈ t) : f r ≤ t.sum f := by
  rw [sum_eq_worth, ← worth_of_find? (f := f) (find?_of_mem member)]
  exact Finset.single_le_sum (fun k _ => worth_nonneg nonneg k) (Finset.mem_univ (key r))

/-- Two rows together add no more than all of them. -/
theorem add_le_sum (nonneg : ∀ r ∈ t, 0 ≤ f r) {r s : R} (left : r ∈ t) (right : s ∈ t)
    (apart : key r ≠ key s) : f r + f s ≤ t.sum f := by
  rw [sum_eq_worth, ← Finset.add_sum_erase _ _ (Finset.mem_univ (key r)),
    worth_of_find? (find?_of_mem left)]
  have rest : t.worth f (key s) ≤ ∑ k ∈ Finset.univ.erase (key r), t.worth f k :=
    Finset.single_le_sum (fun k _ => worth_nonneg nonneg k)
      (Finset.mem_erase.mpr ⟨apart.symm, Finset.mem_univ (key s)⟩)
  rw [worth_of_find? (find?_of_mem right)] at rest
  omega

omit [Fintype K] in
theorem sum_insert {r : R} (absent : t.find? (key r) = none) :
    (t.insert r).sum f = t.sum f + f r := by
  rw [sum, rows_insert absent, List.map_append, List.sum_append]
  simp [sum]

theorem sum_modify {change : R → R} (keeps : ∀ r, key (change r) = key r) {r : R}
    (found : t.find? k = some r) : (t.modify k change).sum f = t.sum f + (f (change r) - f r) := by
  have own : (t.modify k change).find? k = some (change r) := by
    rw [find?_modify_self keeps, found, Option.map_some]
  rw [sum_differ (t := t) (f := f) k, worth_of_find? own, worth_of_find? found]
  intro l other
  rw [worth, worth, find?_modify_ne keeps other.symm]

/-- An update of something else. -/
theorem sum_modify_same {change : R → R} (keeps : ∀ r, key (change r) = key r)
    (same : ∀ r, f (change r) = f r) : (t.modify k change).sum f = t.sum f := by
  cases found : t.find? k with
  | none => rw [modify_absent found]
  | some r => rw [sum_modify keeps found, same, sub_self, add_zero]

end Finstack.Foundation.Table
