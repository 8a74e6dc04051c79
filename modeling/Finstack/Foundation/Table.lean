import Mathlib.Data.List.Nodup
import Mathlib.Algebra.BigOperators.Group.List.Basic
import Mathlib.Algebra.Order.BigOperators.Group.List
import Mathlib.Algebra.Order.Group.Int
import Mathlib.Tactic.Ring

/-! # Keyed tables

A table is a list of rows whose keys are pairwise distinct. The uniqueness of the keys is a
field, so an ill-formed table cannot be built: inserting a taken key and replacing an absent one
both leave the table as it is. Rows keep their insertion order.
-/

namespace Finstack.Foundation

/-- Rows of a table are found by one key. -/
class Keyed (R : Type) (K : outParam Type) where
  key : R → K

export Keyed (key)

/-- Rows with pairwise distinct keys, in insertion order. -/
structure Table (R : Type) {K : Type} [Keyed R K] where
  rows : List R
  nodup : (rows.map key).Nodup

namespace Table

variable {R K : Type} [Keyed R K]

@[ext] theorem ext {s t : Table R} (rows : s.rows = t.rows) : s = t := by
  cases s; cases t; cases rows; rfl

/-- The table without rows. -/
def empty : Table R := ⟨[], by simp⟩

@[simp] theorem rows_empty : (empty : Table R).rows = [] := rfl

instance : Membership R (Table R) := ⟨fun t r => r ∈ t.rows⟩

theorem mem_def {t : Table R} {r : R} : r ∈ t ↔ r ∈ t.rows := Iff.rfl

/-- Two rows with one key are the same row. -/
theorem eq_of_key {t : Table R} {r s : R} (left : r ∈ t) (right : s ∈ t)
    (same : key r = key s) : r = s :=
  List.inj_on_of_nodup_map t.nodup left right same

variable [DecidableEq K]

/-- The row with this key. -/
def find? (t : Table R) (k : K) : Option R := t.rows.find? (fun r => key r = k)

@[simp] theorem find?_empty (k : K) : (empty : Table R).find? k = none := rfl

theorem find?_some {t : Table R} {k : K} {r : R} (found : t.find? k = some r) :
    r ∈ t ∧ key r = k :=
  ⟨List.mem_of_find?_eq_some found, by simpa using List.find?_some found⟩

theorem find?_of_mem {t : Table R} {r : R} (member : r ∈ t) : t.find? (key r) = some r := by
  cases found : t.find? (key r) with
  | none =>
    have absent := List.find?_eq_none.mp found r member
    simp at absent
  | some s =>
    obtain ⟨present, same⟩ := find?_some found
    exact congrArg some (eq_of_key present member same)

theorem find?_eq_some_iff {t : Table R} {k : K} {r : R} :
    t.find? k = some r ↔ r ∈ t ∧ key r = k := by
  constructor
  · exact find?_some
  · rintro ⟨member, rfl⟩
    exact find?_of_mem member

theorem find?_eq_none_iff {t : Table R} {k : K} : t.find? k = none ↔ ∀ r ∈ t, key r ≠ k := by
  simp [find?, List.find?_eq_none, mem_def]

theorem not_mem_keys_of_find?_none {t : Table R} {k : K} (absent : t.find? k = none) :
    k ∉ t.rows.map key := by
  intro member
  obtain ⟨r, present, same⟩ := List.mem_map.mp member
  exact find?_eq_none_iff.mp absent r present same

/-- Appends a row; a taken key leaves the table unchanged. -/
def insert (t : Table R) (r : R) : Table R :=
  if absent : t.find? (key r) = none then
    ⟨t.rows ++ [r], by
      have fresh := not_mem_keys_of_find?_none absent
      simpa [List.nodup_append] using
        ⟨t.nodup, fun s member same => fresh (List.mem_map.mpr ⟨s, member, same⟩)⟩⟩
  else t

theorem rows_insert {t : Table R} {r : R} (absent : t.find? (key r) = none) :
    (t.insert r).rows = t.rows ++ [r] := by
  simp [insert, absent]

theorem insert_taken {t : Table R} {r : R} (taken : t.find? (key r) ≠ none) :
    t.insert r = t := by
  simp [insert, taken]

theorem mem_insert {t : Table R} {r s : R} (absent : t.find? (key r) = none) :
    s ∈ t.insert r ↔ s ∈ t ∨ s = r := by
  simp [mem_def, rows_insert absent]

theorem mem_of_mem_insert {t : Table R} {r s : R} (member : s ∈ t.insert r) : s ∈ t ∨ s = r := by
  by_cases absent : t.find? (key r) = none
  · exact (mem_insert absent).mp member
  · rw [insert_taken absent] at member
    exact .inl member

theorem find?_insert_self {t : Table R} {r : R} (absent : t.find? (key r) = none) :
    (t.insert r).find? (key r) = some r :=
  find?_of_mem ((mem_insert absent).mpr (.inr rfl))

theorem find?_insert_ne {t : Table R} {r : R} {k : K} (other : key r ≠ k) :
    (t.insert r).find? k = t.find? k := by
  by_cases absent : t.find? (key r) = none
  · simp [find?, rows_insert absent, List.find?_append, other]
  · rw [insert_taken absent]

theorem find?_insert (t : Table R) (r : R) (k : K) :
    (t.insert r).find? k = (t.find? k).or (if key r = k then some r else none) := by
  by_cases same : key r = k
  · subst same
    by_cases absent : t.find? (key r) = none
    · simp [find?_insert_self absent, absent]
    · obtain ⟨old, found⟩ := Option.ne_none_iff_exists'.mp absent
      rw [insert_taken absent, found]
      rfl
  · simp [find?_insert_ne same, same]

/-- A search by something else than the key finds old rows first. -/
theorem rows_find?_insert (t : Table R) (r : R) (p : R → Bool) :
    (t.insert r).rows.find? p =
      (t.rows.find? p).or (if (t.find? (key r)).isNone ∧ p r then some r else none) := by
  by_cases absent : t.find? (key r) = none
  · cases holds : p r <;> simp [rows_insert absent, List.find?_append, absent, holds]
  · rw [insert_taken absent]
    have taken : (t.find? (key r)).isNone = false := by
      cases found : t.find? (key r) with
      | none => exact (absent found).elim
      | some => rfl
    simp [taken]

theorem index_insert (t : Table R) (r : R) (p : R → Bool) :
    ((t.insert r).rows.find? p).map key = ((t.rows.find? p).map key).or
      (if (t.find? (key r)).isNone ∧ p r then some (key r) else none) := by
  rw [rows_find?_insert, Option.map_or]
  split_ifs <;> rfl

/-- An insertion keeps every row already found. -/
theorem find?_insert_of_some {t : Table R} {r s : R} {k : K} (found : t.find? k = some s) :
    (t.insert r).find? k = some s := by
  by_cases same : key r = k
  · have taken : t.find? (key r) ≠ none := by rw [same, found]; simp
    rw [insert_taken taken, found]
  · rw [find?_insert_ne same, found]

/-- Replaces the row that has this row's key; an absent key leaves the table unchanged. -/
def replace (t : Table R) (r : R) : Table R where
  rows := t.rows.map fun s => if key s = key r then r else s
  nodup := by
    have same : (t.rows.map fun s => if key s = key r then r else s).map key = t.rows.map key := by
      simp only [List.map_map]
      apply List.map_congr_left
      intro s _
      by_cases h : key s = key r <;> simp [h]
    rw [same]
    exact t.nodup

theorem find?_replace_self {t : Table R} {r s : R} (found : t.find? (key r) = some s) :
    (t.replace r).find? (key r) = some r := by
  obtain ⟨member, same⟩ := find?_some found
  apply find?_of_mem
  exact List.mem_map.mpr ⟨s, member, by simp [same]⟩

theorem find?_replace_ne {t : Table R} {r : R} {k : K} (other : key r ≠ k) :
    (t.replace r).find? k = t.find? k := by
  cases found : t.find? k with
  | none =>
    rw [find?_eq_none_iff] at found ⊢
    rintro s member
    obtain ⟨old, present, rfl⟩ := List.mem_map.mp member
    by_cases h : key old = key r
    · simpa [h] using other
    · simpa [h] using found old present
  | some s =>
    obtain ⟨member, same⟩ := find?_some found
    rw [find?_eq_some_iff]
    refine ⟨List.mem_map.mpr ⟨s, member, ?_⟩, same⟩
    have : key s ≠ key r := fun h => other (h.symm.trans same)
    simp [this]

theorem find?_replace {t : Table R} {r : R} {k : K} :
    (t.replace r).find? k = if key r = k then (t.find? k).map (fun _ => r) else t.find? k := by
  by_cases same : key r = k
  · subst same
    cases found : t.find? (key r) with
    | none =>
      rw [find?_eq_none_iff] at found
      simp only [↓reduceIte, Option.map_none, find?_eq_none_iff]
      rintro s member
      obtain ⟨old, present, rfl⟩ := List.mem_map.mp member
      simp [found old present]
    | some s => simpa using find?_replace_self found
  · simp [same, find?_replace_ne same]

/-- Replacing a row moves no index that the new row has under the same key as the old one. -/
theorem rows_find?_replace {t : Table R} {r s : R} (found : t.find? (key r) = some s)
    {p : R → Bool} (same : p r = p s) :
    ((t.replace r).rows.find? p).map key = (t.rows.find? p).map key := by
  obtain ⟨present, own⟩ := find?_some found
  have each : ∀ x ∈ t.rows, (p (if key x = key r then r else x) = p x) ∧
      key (if key x = key r then r else x) = key x := by
    intro x member
    by_cases here : key x = key r
    · obtain rfl : x = s := eq_of_key member present (here.trans own.symm)
      simp [here, same]
    · simp [here]
  have walk : ∀ rows : List R, (∀ x ∈ rows, x ∈ t.rows) →
      ((rows.map fun x => if key x = key r then r else x).find? p).map key
        = (rows.find? p).map key := by
    intro rows inside
    induction rows with
    | nil => rfl
    | cons x rest ih =>
      obtain ⟨test, name⟩ := each x (inside x List.mem_cons_self)
      have tail := ih fun y later => inside y (List.mem_cons_of_mem _ later)
      simp only [List.map_cons, List.find?_cons, test]
      cases p x with
      | true => simp [name]
      | false => exact tail
  exact walk t.rows fun _ member => member

/-- Changes the row with this key; an absent key leaves the table unchanged. -/
def modify (t : Table R) (k : K) (change : R → R) : Table R :=
  match t.find? k with
  | some r => t.replace (change r)
  | none => t

section Modify

variable {t : Table R} {k k' : K} {change : R → R}

theorem modify_absent (absent : t.find? k = none) : t.modify k change = t := by
  rw [modify, absent]

theorem modify_present {r : R} (found : t.find? k = some r) :
    t.modify k change = t.replace (change r) := by
  rw [modify, found]

theorem find?_modify_self (keeps : ∀ r, key (change r) = key r) :
    (t.modify k change).find? k = (t.find? k).map change := by
  cases found : t.find? k with
  | none => rw [modify_absent found, found, Option.map_none]
  | some r =>
    have own : key (change r) = k := (keeps r).trans (find?_some found).2
    subst own
    rw [modify_present found, find?_replace_self found, Option.map_some]

theorem find?_modify_ne (keeps : ∀ r, key (change r) = key r) (other : k ≠ k') :
    (t.modify k change).find? k' = t.find? k' := by
  cases found : t.find? k with
  | none => rw [modify_absent found]
  | some r =>
    have own : key (change r) = k := (keeps r).trans (find?_some found).2
    rw [modify_present found, find?_replace_ne (own ▸ other)]

theorem find?_modify (keeps : ∀ r, key (change r) = key r) :
    (t.modify k change).find? k' = if k = k' then (t.find? k').map change else t.find? k' := by
  split_ifs with same
  · subst same
    exact find?_modify_self keeps
  · exact find?_modify_ne keeps same

/-- What is true of every row stays true under a change that keeps it so. -/
theorem forall_mem_modify {P : R → Prop} (keeps : ∀ r, key (change r) = key r) (all : ∀ r ∈ t, P r)
    (changed : ∀ r ∈ t, key r = k → P (change r)) : ∀ r ∈ t.modify k change, P r := by
  intro r member
  have found := find?_of_mem member
  rw [find?_modify keeps] at found
  split_ifs at found with own
  · obtain ⟨old, there, rfl⟩ := Option.map_eq_some_iff.mp found
    have present := find?_some there
    exact changed old present.1 (present.2.trans own.symm)
  · exact all r (find?_some found).1

/-- A change that keeps what an index looks at moves nothing in the index. -/
theorem index_modify (keeps : ∀ r, key (change r) = key r) {p : R → Bool}
    (same : ∀ r, p (change r) = p r) :
    ((t.modify k change).rows.find? p).map key = (t.rows.find? p).map key := by
  cases found : t.find? k with
  | none => rw [modify_absent found]
  | some r =>
    have own : key (change r) = k := (keeps r).trans (find?_some found).2
    subst own
    rw [modify_present found, rows_find?_replace found (same r)]

end Modify

/-- The sum of a column. -/
def sum (t : Table R) (f : R → Int) : Int := (t.rows.map f).sum

omit [DecidableEq K] in
@[simp] theorem sum_empty (f : R → Int) : (empty : Table R).sum f = 0 := rfl

omit [DecidableEq K] in
theorem sum_nonneg {t : Table R} {f : R → Int} (nonneg : ∀ r ∈ t, 0 ≤ f r) : 0 ≤ t.sum f := by
  apply List.sum_nonneg
  intro value member
  obtain ⟨r, present, rfl⟩ := List.mem_map.mp member
  exact nonneg r present

omit [DecidableEq K] in
theorem sum_congr {t : Table R} {f g : R → Int} (same : ∀ r ∈ t, f r = g r) :
    t.sum f = t.sum g :=
  congrArg List.sum (List.map_congr_left same)

omit [DecidableEq K] in
theorem sum_add (t : Table R) (f g : R → Int) :
    t.sum (fun r => f r + g r) = t.sum f + t.sum g :=
  List.sum_map_add

omit [DecidableEq K] in
@[simp] theorem sum_zero (t : Table R) : t.sum (fun _ => 0) = 0 := by
  simp [sum]

/-- A column that is zero but in one row. -/
theorem sum_single {t : Table R} {r : R} (member : r ∈ t) (f : R → Int) :
    t.sum (fun s => if key s = key r then f s else 0) = f r := by
  have only : ∀ rows : List R, (rows.map key).Nodup → r ∈ rows →
      (rows.map fun s => if key s = key r then f s else 0).sum = f r := by
    intro rows nodup present
    induction rows with
    | nil => cases present
    | cons x rest ih =>
      obtain ⟨fresh, tail⟩ := List.nodup_cons.mp nodup
      rcases List.mem_cons.mp present with rfl | later
      · have zeros : (rest.map fun s => if key s = key r then f s else 0) = rest.map fun _ => 0 := by
          refine List.map_congr_left fun s other => ?_
          have different : key s ≠ key r := fun same =>
            fresh (List.mem_map.mpr ⟨s, other, same⟩)
          simp [different]
        simp [zeros]
      · have different : key x ≠ key r := fun same =>
          fresh (List.mem_map.mpr ⟨r, later, same.symm⟩)
        simp [different, ih tail later]
  exact only t.rows t.nodup member

/-- Summing items row by row, each under the row it belongs to, sums all of them. -/
theorem sum_join {E : Type} {t : Table R} (items : List E) (owner : E → K) (g : E → Int)
    (known : ∀ e ∈ items, (t.find? (owner e)).isSome) :
    t.sum (fun r => ((items.filter fun e => owner e = key r).map g).sum) = (items.map g).sum := by
  induction items with
  | nil => simp
  | cons e rest ih =>
    obtain ⟨r, found⟩ := Option.isSome_iff_exists.mp (known e List.mem_cons_self)
    obtain ⟨member, same⟩ := find?_some found
    have split : ∀ s : R, (((e :: rest).filter fun e => owner e = key s).map g).sum
        = (if key s = key r then g e else 0)
          + ((rest.filter fun e => owner e = key s).map g).sum := by
      intro s
      by_cases here : key s = key r
      · simp [← same, here]
      · have away : ¬ key r = key s := fun same => here same.symm
        simp [← same, here, away]
    simp only [split, sum_add]
    rw [sum_single member fun _ => g e, ih fun e later => known e (List.mem_cons_of_mem _ later)]
    simp

end Table

end Finstack.Foundation
