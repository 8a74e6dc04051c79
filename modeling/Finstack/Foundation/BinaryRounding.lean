import Mathlib.Data.Int.Log
import Mathlib.Data.Rat.Floor
import Mathlib.Tactic.FieldSimp
import Mathlib.Tactic.Linarith
import Mathlib.Tactic.Positivity
import Mathlib.Tactic.Ring

/-! # Rounding to a binary significand

Nonnegative rationals rounded to the nearest with a significand of `p` bits, ties to even; exponents
are unbounded. Rounding never passes a number that needs no rounding.
-/

namespace Finstack.Foundation

variable {p : ℕ} {x y : ℚ} {n k e : ℤ}

/-! ## To whole numbers -/

/-- The nearest whole number; the even one of two. -/
def roundHalfEven (x : ℚ) : ℤ :=
  if Int.fract x < 1 / 2 then ⌊x⌋
  else if 1 / 2 < Int.fract x then ⌊x⌋ + 1
  else if ⌊x⌋ % 2 = 0 then ⌊x⌋ else ⌊x⌋ + 1

theorem abs_roundHalfEven_sub_le (x : ℚ) : |(roundHalfEven x : ℚ) - x| ≤ 1 / 2 := by
  have split := Int.self_sub_floor x
  have low := Int.fract_nonneg x
  have high := Int.fract_lt_one x
  rw [abs_le]
  unfold roundHalfEven
  split_ifs <;> push_cast <;> constructor <;> linarith

/-- No whole number is closer. -/
theorem abs_roundHalfEven_sub_le_abs (x : ℚ) (k : ℤ) : |(roundHalfEven x : ℚ) - x| ≤ |(k : ℚ) - x| := by
  have near := abs_roundHalfEven_sub_le x
  by_cases same : k = roundHalfEven x
  · rw [same]
  · have apart : (1 : ℚ) ≤ |(k : ℚ) - roundHalfEven x| := by
      exact_mod_cast Int.one_le_abs (sub_ne_zero.mpr same)
    have path := abs_sub_le (k : ℚ) x (roundHalfEven x)
    rw [abs_sub_comm x] at path
    linarith

theorem roundHalfEven_eq (near : |(n : ℚ) - x| < 1 / 2) : roundHalfEven x = n := by
  by_contra different
  have apart : (1 : ℚ) ≤ |(roundHalfEven x : ℚ) - n| := by
    exact_mod_cast Int.one_le_abs (sub_ne_zero.mpr different)
  have path := abs_sub_le (roundHalfEven x : ℚ) x n
  have other := abs_roundHalfEven_sub_le x
  rw [abs_sub_comm x] at path
  linarith

/-- There are no ties over an odd denominator. -/
theorem roundHalfEven_div_odd (a : ℤ) {h : ℤ} (nonneg : 0 ≤ h) :
    roundHalfEven ((a : ℚ) / (2 * h + 1 : ℤ)) = (a + h) / (2 * h + 1) := by
  have positive : (0 : ℚ) < (2 * h + 1 : ℤ) := by exact_mod_cast (by omega : 0 < 2 * h + 1)
  have division := Int.mul_ediv_add_emod (a + h) (2 * h + 1)
  have low := Int.emod_nonneg (a + h) (by omega : 2 * h + 1 ≠ 0)
  have high := Int.emod_lt_of_pos (a + h) (by omega : 0 < 2 * h + 1)
  apply roundHalfEven_eq
  have numerator : |(a + h) / (2 * h + 1) * (2 * h + 1) - a| ≤ h := by
    rw [abs_le, Int.mul_comm]
    omega
  have scaled : (((a + h) / (2 * h + 1) : ℤ) : ℚ) - a / (2 * h + 1 : ℤ) =
      (((a + h) / (2 * h + 1) * (2 * h + 1) - a : ℤ) : ℚ) / (2 * h + 1 : ℤ) := by
    push_cast at positive ⊢
    field_simp
  rw [scaled, abs_div, abs_of_pos positive, div_lt_iff₀ positive]
  have bound : ((|(a + h) / (2 * h + 1) * (2 * h + 1) - a| : ℤ) : ℚ) ≤ h := by
    exact_mod_cast numerator
  rw [Int.cast_abs] at bound
  push_cast at bound ⊢
  linarith

/-! ## To `p` bits -/

/-- A number that `p` bits and an exponent write. -/
def Binary (p : ℕ) (y : ℚ) : Prop := ∃ m e : ℤ, |m| < 2 ^ p ∧ y = m * 2 ^ e

/-- How far apart the numbers of `p` bits are from the power of two below a number on. -/
def spacing (p : ℕ) (x : ℚ) : ℚ := 2 ^ (Int.log 2 x - p + 1)

/-- The nearest number of `p` bits; the one with the even significand of two. -/
def roundBinary (p : ℕ) (x : ℚ) : ℚ := roundHalfEven (x / spacing p x) * spacing p x

theorem spacing_pos : 0 < spacing p x := zpow_pos (by norm_num) _

theorem spacing_eq (low : 2 ^ e ≤ x) (high : x < 2 ^ (e + 1)) : spacing p x = 2 ^ (e - p + 1) := by
  have positive : 0 < x := (zpow_pos (by norm_num) e).trans_le low
  have log : Int.log 2 x = e := by
    apply le_antisymm
    · exact Int.lt_add_one_iff.mp ((Int.lt_zpow_iff_log_lt (by decide) positive).mp (by exact_mod_cast high))
    · exact (Int.zpow_le_iff_le_log (by decide) positive).mp (by exact_mod_cast low)
  rw [spacing, log]

/-- Smaller numbers lie no further apart. -/
theorem spacing_le (positive : 0 < x) (high : x < 2 ^ (e + 1)) : spacing p x ≤ 2 ^ (e - p + 1) := by
  have log : Int.log 2 x ≤ e :=
    Int.lt_add_one_iff.mp ((Int.lt_zpow_iff_log_lt (by decide) positive).mp (by exact_mod_cast high))
  exact zpow_le_zpow_right₀ (by norm_num) (by omega)

theorem roundBinary_eq (low : 2 ^ e ≤ x) (high : x < 2 ^ (e + 1)) :
    roundBinary p x = roundHalfEven (x / 2 ^ (e - p + 1)) * 2 ^ (e - p + 1) := by
  rw [roundBinary, spacing_eq low high]

@[simp] theorem roundBinary_zero (p : ℕ) : roundBinary p 0 = 0 := by
  simp [roundBinary, roundHalfEven]

theorem abs_roundBinary_sub_le (p : ℕ) (x : ℚ) : |roundBinary p x - x| ≤ spacing p x / 2 := by
  have positive : 0 < spacing p x := spacing_pos
  have near := abs_roundHalfEven_sub_le (x / spacing p x)
  have scaled : roundBinary p x - x =
      (roundHalfEven (x / spacing p x) - x / spacing p x) * spacing p x := by
    unfold roundBinary
    field_simp
  rw [scaled, abs_mul, abs_of_pos positive]
  linarith [mul_le_mul_of_nonneg_right near positive.le]

/-- No multiple of the spacing is closer. -/
private theorem nearest_multiple (p : ℕ) (x : ℚ) (k : ℤ) :
    |roundBinary p x - x| ≤ |k * spacing p x - x| := by
  have positive : 0 < spacing p x := spacing_pos
  have near := abs_roundHalfEven_sub_le_abs (x / spacing p x) k
  have scaled : ∀ n : ℤ, |n * spacing p x - x| = |n - x / spacing p x| * spacing p x := by
    intro n
    rw [← abs_of_pos positive, ← abs_mul, abs_of_pos positive]
    congr 1
    field_simp
  rw [roundBinary, scaled, scaled]
  exact mul_le_mul_of_nonneg_right near positive.le

/-- No number of `p` bits is closer. -/
theorem roundBinary_nearest (bits : 1 ≤ p) (nonneg : 0 ≤ x) (binary : Binary p y) :
    |roundBinary p x - x| ≤ |y - x| := by
  obtain ⟨m, e, bound, rfl⟩ := binary
  rcases nonneg.eq_or_lt with rfl | positive
  · rw [roundBinary_zero, sub_zero, abs_zero]
    exact abs_nonneg _
  have low : (2 : ℚ) ^ Int.log 2 x ≤ x := by exact_mod_cast Int.zpow_log_le_self (b := 2) (by decide) positive
  by_cases fine : Int.log 2 x - p + 1 ≤ e
  · -- a multiple of the spacing
    obtain ⟨d, exponent⟩ := Int.eq_ofNat_of_zero_le (sub_nonneg.mpr fine)
    have same : (m : ℚ) * 2 ^ e = (m * 2 ^ d : ℤ) * spacing p x := by
      have shift : e = (d : ℤ) + (Int.log 2 x - p + 1) := by omega
      rw [shift, zpow_add₀ (by norm_num), zpow_natCast, spacing]
      push_cast
      ring
    rw [same]
    exact nearest_multiple p x _
  · -- below the power of two, which is a multiple of the spacing
    have power : (2 : ℚ) ^ Int.log 2 x = (2 ^ (p - 1) : ℤ) * spacing p x := by
      push_cast
      rw [spacing, ← zpow_natCast, ← zpow_add₀ (by norm_num)]
      congr 1
      omega
    have below : (m : ℚ) * 2 ^ e ≤ 2 ^ Int.log 2 x := by
      have significand : (m : ℚ) ≤ 2 ^ p := by
        exact_mod_cast (le_abs_self m).trans bound.le
      calc
        (m : ℚ) * 2 ^ e ≤ 2 ^ (p : ℤ) * 2 ^ e :=
          mul_le_mul_of_nonneg_right (by exact_mod_cast significand) (zpow_pos (by norm_num) e).le
        _ = 2 ^ ((p : ℤ) + e) := (zpow_add₀ (by norm_num) _ _).symm
        _ ≤ 2 ^ Int.log 2 x := zpow_le_zpow_right₀ (by norm_num) (by omega)
    have near := nearest_multiple p x (2 ^ (p - 1))
    rw [← power, abs_of_nonpos (sub_nonpos.mpr low)] at near
    rw [abs_of_nonpos (by linarith : (m : ℚ) * 2 ^ e - x ≤ 0)]
    linarith

theorem le_roundBinary (bits : 1 ≤ p) (nonneg : 0 ≤ x) (binary : Binary p y) (le : y ≤ x) :
    y ≤ roundBinary p x := by
  by_contra below
  push Not at below
  have near := roundBinary_nearest bits nonneg binary
  rw [abs_of_nonpos (by linarith), abs_of_nonpos (by linarith)] at near
  linarith

theorem binary_natCast {n : ℕ} (small : n < 2 ^ p) : Binary p n :=
  ⟨n, 0, by rw [Nat.abs_cast]; exact_mod_cast small, by simp⟩

/-! ## With a least exponent -/

variable {least : ℤ}

/-- The nearest number of `p` bits whose exponent is not below `least`: fewer bits are left for small
numbers. -/
def roundFloat (p : ℕ) (least : ℤ) (x : ℚ) : ℚ :=
  let unit : ℚ := 2 ^ max (Int.log 2 x - p + 1) least
  roundHalfEven (x / unit) * unit

/-- What is not small is rounded to `p` bits. -/
theorem roundFloat_eq (normal : least ≤ Int.log 2 x - p + 1) : roundFloat p least x = roundBinary p x := by
  simp only [roundFloat, roundBinary, spacing, max_eq_left normal]

@[simp] theorem roundFloat_zero (p : ℕ) (least : ℤ) : roundFloat p least 0 = 0 := by
  simp [roundFloat, roundHalfEven]

/-- A multiple of the unit is not changed. -/
theorem roundHalfEven_mul_unit {unit : ℤ} (coarser : unit ≤ e) (m : ℤ) :
    (roundHalfEven ((m : ℚ) * 2 ^ e / 2 ^ unit) : ℚ) * 2 ^ unit = m * 2 ^ e := by
  obtain ⟨d, exponent⟩ := Int.eq_ofNat_of_zero_le (sub_nonneg.mpr coarser)
  have units : (m : ℚ) * 2 ^ e = (m * 2 ^ d : ℤ) * 2 ^ unit := by
    have shift : e = (d : ℤ) + unit := by omega
    rw [shift, zpow_add₀ (by norm_num), zpow_natCast]
    push_cast
    ring
  have whole : roundHalfEven ((m * 2 ^ d : ℤ) : ℚ) = m * 2 ^ d := by
    apply roundHalfEven_eq
    rw [sub_self, abs_zero]
    norm_num
  rw [units, mul_div_cancel_right₀ _ (zpow_ne_zero unit (by norm_num)), whole]

/-- What the format has is not changed. -/
theorem roundFloat_self {m : ℤ} (bound : |m| < 2 ^ p) (fine : least ≤ e) (positive : 0 < (m : ℚ) * 2 ^ e) :
    roundFloat p least (m * 2 ^ e) = m * 2 ^ e := by
  have significand : (m : ℚ) < 2 ^ (p : ℤ) := by
    rw [zpow_natCast]
    exact_mod_cast (le_abs_self m).trans_lt bound
  have high : (m : ℚ) * 2 ^ e < 2 ^ ((p : ℤ) + e) := by
    rw [zpow_add₀ (by norm_num)]
    exact mul_lt_mul_of_pos_right significand (zpow_pos (by norm_num) e)
  have log : Int.log 2 ((m : ℚ) * 2 ^ e) < p + e :=
    (Int.lt_zpow_iff_log_lt (by decide) positive).mp (by exact_mod_cast high)
  exact roundHalfEven_mul_unit (max_le (by omega) fine) m

end Finstack.Foundation
