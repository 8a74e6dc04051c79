import Mathlib.Algebra.BigOperators.Group.List.Basic
import Mathlib.Algebra.Order.Floor.Ring
import Mathlib.Algebra.Order.Field.Rat
import Mathlib.Data.Rat.Floor
import Mathlib.Tactic.FieldSimp
import Mathlib.Tactic.Linarith
import Mathlib.Tactic.Positivity

/-! # Rounding at a rate

Amounts are whole numbers, rates are rationals. An amount at a rate is rounded down. Machines divide
truncating, which rounds nonnegative quotients down, and round up by adding to the dividend first.
-/

namespace Finstack.Foundation

/-! ## Truncating division -/

theorem tdiv_eq_floor {a b : ℤ} (nonneg : 0 ≤ a) (divisor : 0 ≤ b) :
    a.tdiv b = ⌊(a : ℚ) / b⌋ := by
  rw [Int.tdiv_eq_ediv_of_nonneg nonneg]
  obtain ⟨n, rfl⟩ := Int.eq_ofNat_of_zero_le divisor
  exact (Rat.floor_intCast_div_natCast a n).symm

/-- Rounding up: the least whole number that makes up for the dividend. -/
theorem add_sub_one_tdiv_le_iff {a b k : ℤ} (positive : 0 < b) (nonneg : 0 ≤ a) :
    (a + b - 1).tdiv b ≤ k ↔ a ≤ k * b := by
  rw [Int.tdiv_eq_ediv_of_nonneg (by omega), ← Int.lt_add_one_iff, Int.ediv_lt_iff_lt_mul positive,
    Int.add_mul]
  omega

/-! ## Amounts at a rate -/

/-- What an amount is worth at a rate, rounded down. -/
def roundDown (rate : ℚ) (amount : ℤ) : ℤ := ⌊(amount : ℚ) * rate⌋

variable {rate rate' : ℚ} {amount amount' target : ℤ}

theorem roundDown_nonneg (nonneg : 0 ≤ rate) (amount_nonneg : 0 ≤ amount) :
    0 ≤ roundDown rate amount := by
  have : (0 : ℚ) ≤ amount := by exact_mod_cast amount_nonneg
  exact Int.floor_nonneg.mpr (by positivity)

/-- More is worth at least as much. -/
theorem roundDown_mono (nonneg : 0 ≤ rate) (le : amount ≤ amount') :
    roundDown rate amount ≤ roundDown rate amount' := by
  have : (amount : ℚ) ≤ amount' := by exact_mod_cast le
  exact Int.floor_le_floor (mul_le_mul_of_nonneg_right this nonneg)

/-- A worse rate is never worth more. -/
theorem roundDown_le_of_le (le : rate ≤ rate') (amount_nonneg : 0 ≤ amount) :
    roundDown rate amount ≤ roundDown rate' amount := by
  have : (0 : ℚ) ≤ amount := by exact_mod_cast amount_nonneg
  exact Int.floor_le_floor (mul_le_mul_of_nonneg_left le this)

/-- What it takes to be worth the target. -/
theorem le_roundDown_iff (positive : 0 < rate) :
    target ≤ roundDown rate amount ↔ (target : ℚ) / rate ≤ amount := by
  rw [roundDown, Int.le_floor, div_le_iff₀ positive]

theorem roundDown_add_le : roundDown rate amount + roundDown rate amount' ≤
    roundDown rate (amount + amount') := by
  have sum : ((amount + amount' : ℤ) : ℚ) * rate = amount * rate + amount' * rate := by
    push_cast
    ring
  rw [roundDown, roundDown, roundDown, sum]
  exact Int.le_floor_add _ _

/-- Parts are worth at most the whole. -/
theorem sum_roundDown_le (rate : ℚ) (parts : List ℤ) :
    (parts.map (roundDown rate)).sum ≤ roundDown rate parts.sum := by
  induction parts with
  | nil => simp [roundDown]
  | cons part parts ih =>
    rw [List.map_cons, List.sum_cons, List.sum_cons]
    calc
      roundDown rate part + (parts.map (roundDown rate)).sum
        ≤ roundDown rate part + roundDown rate parts.sum := by omega
      _ ≤ roundDown rate (part + parts.sum) := roundDown_add_le

/-- There and back, at rates that make no gain together, is never worth more than at the start. -/
theorem roundDown_roundDown_le (nonneg : 0 ≤ rate') (amount_nonneg : 0 ≤ amount)
    (gainless : rate * rate' ≤ 1) : roundDown rate' (roundDown rate amount) ≤ amount := by
  have start : (0 : ℚ) ≤ amount := by exact_mod_cast amount_nonneg
  have there : ((roundDown rate amount : ℤ) : ℚ) ≤ amount * rate := Int.floor_le _
  have back : ((roundDown rate' (roundDown rate amount) : ℤ) : ℚ) ≤ amount := by
    calc
      ((roundDown rate' (roundDown rate amount) : ℤ) : ℚ)
        ≤ (roundDown rate amount : ℤ) * rate' := Int.floor_le _
      _ ≤ amount * rate * rate' := mul_le_mul_of_nonneg_right there nonneg
      _ = amount * (rate * rate') := by ring
      _ ≤ amount * 1 := mul_le_mul_of_nonneg_left gainless start
      _ = amount := mul_one _
  exact_mod_cast back

end Finstack.Foundation
