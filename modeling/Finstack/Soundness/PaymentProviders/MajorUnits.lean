import Finstack.Model.PaymentProviders.MajorUnits
import Finstack.Soundness.Fx.Rates

/-! # Amounts in major units

Which texts `fromMajorUnits` reads and what it makes of them, that it reads back what
`toMajorUnitString` writes, and which amounts their numbers still tell apart.
-/

namespace Finstack.PaymentProviders

open Foundation FxMath

variable {currency : String} {exponent : Nat} {minor amount : Int} {value : String}

/-! ## Currencies -/

theorem exponentOf_ok_iff : exponentOf currency = .ok exponent ↔
    CURRENCIES.lookup currency = some exponent := by
  unfold exponentOf
  cases CURRENCIES.lookup currency <;> simp

/-- Hundredths, or nothing smaller than a unit. -/
theorem exponent_cases (supported : exponentOf currency = .ok exponent) :
    exponent = 0 ∨ exponent = 2 := by
  obtain ⟨before, after, listed, -⟩ := List.lookup_eq_some_iff.mp (exponentOf_ok_iff.mp supported)
  have member : (currency, exponent) ∈ CURRENCIES := by
    rw [listed]
    exact List.mem_append_right _ List.mem_cons_self
  simp only [CURRENCIES, List.mem_cons, Prod.mk.injEq, List.not_mem_nil, or_false] at member
  omega

/-! ## Reading -/

theorem bigInt_eq (digits : List Char) : bigInt digits = number digits := rfl

theorem number_orZero (digits : List Char) : number (orZero digits) = number digits := by
  unfold orZero
  split_ifs with empty
  · rw [empty]
    rfl
  · rfl

/-- What is read is digits, with no significant one beyond the exponent. -/
theorem fromMajorUnits_ok_iff (supported : exponentOf currency = .ok exponent) :
    fromMajorUnits (some (.string value)) currency = .ok amount ↔
      ∃ whole fraction, whole ≠ [] ∧ Digits whole ∧ Digits fraction ∧
        trim value = decimal whole fraction ∧ (∀ c ∈ fraction.drop exponent, c = '0') ∧
        (amount : ℚ) = decimalValue whole fraction * 10 ^ exponent := by
  have scaled : ∀ whole fraction, (significant fraction).length ≤ exponent →
      ((bigInt whole * 10 ^ exponent +
        bigInt (orZero (FxMath.padEnd (significant fraction) exponent)) : Int) : ℚ) =
          decimalValue whole fraction * 10 ^ exponent := by
    intro whole fraction fits
    rw [bigInt_eq, bigInt_eq, number_orZero, ← decimalValue_significant, decimalValue_rightpad fits,
      FxMath.padEnd]
    push_cast
    field_simp
  unfold fromMajorUnits
  simp only [supported, bind, Except.bind, AMOUNT_PATTERN]
  cases found : readDecimal (trim value) with
  | none =>
    refine ⟨fun failed => (nomatch failed), ?_⟩
    rintro ⟨whole, fraction, nonempty, digits, fraction_digits, text, -⟩
    rw [readDecimal_iff.mpr ⟨nonempty, digits, fraction_digits, text⟩] at found
    cases found
  | some groups =>
    obtain ⟨whole, fraction⟩ := groups
    have read := readDecimal_iff.mp found
    change (if (significant fraction).length > exponent then _ else _) = _ ↔ _
    split_ifs with long
    · refine ⟨fun failed => (nomatch failed), ?_⟩
      rintro ⟨whole', fraction', nonempty, digits, fraction_digits, text, zeros, -⟩
      rw [readDecimal_iff.mpr ⟨nonempty, digits, fraction_digits, text⟩] at found
      cases found
      exact absurd (length_significant_le_iff.mpr zeros) (by omega)
    · have fits : (significant fraction).length ≤ exponent := by omega
      constructor
      · intro result
        cases result
        exact ⟨whole, fraction, read.1, read.2.1, read.2.2.1, read.2.2.2,
          length_significant_le_iff.mp fits, scaled whole fraction fits⟩
      · rintro ⟨whole', fraction', nonempty, digits, fraction_digits, text, zeros, same⟩
        rw [readDecimal_iff.mpr ⟨nonempty, digits, fraction_digits, text⟩] at found
        cases found
        rw [← scaled whole fraction fits] at same
        exact congrArg Except.ok (by exact_mod_cast same.symm)

/-! ## Writing -/

/-- The digits of the whole units. -/
def wholeUnits (exponent n : Nat) : List Char := Nat.toDigits 10 (n / 10 ^ exponent)

/-- The digits behind the point, as many as the exponent. -/
def minorUnits (exponent n : Nat) : List Char :=
  if exponent = 0 then [] else (Nat.toDigits 10 (n % 10 ^ exponent)).leftpad exponent '0'

theorem digits_minorUnits (exponent n : Nat) : Digits (minorUnits exponent n) := by
  unfold minorUnits
  split_ifs
  · exact .nil
  · exact digits_leftpad digits_toDigits

theorem length_minorUnits (exponent n : Nat) : (minorUnits exponent n).length = exponent := by
  unfold minorUnits
  split_ifs with whole
  · exact whole.symm
  · have short := (Nat.length_toDigits_le_iff (b := 10) (n := n % 10 ^ exponent) (k := exponent)
      (by decide) (by omega)).mpr (Nat.mod_lt _ (by positivity))
    rw [List.length_leftpad]
    omega

/-- The digits add up to the amount. -/
theorem decimalValue_units (exponent n : Nat) :
    decimalValue (wholeUnits exponent n) (minorUnits exponent n) = n / 10 ^ exponent := by
  have written : number (minorUnits exponent n) = n % 10 ^ exponent := by
    unfold minorUnits
    split_ifs with whole
    · rw [whole, pow_zero, Nat.mod_one, number_nil]
    · rw [number_leftpad, number_toDigits]
  have split : (n : ℚ) = (n / 10 ^ exponent : Nat) * 10 ^ exponent + (n % 10 ^ exponent : Nat) := by
    exact_mod_cast (Nat.div_add_mod' n (10 ^ exponent)).symm
  rw [decimalValue, length_minorUnits, written, wholeUnits, number_toDigits]
  conv_rhs => rw [split]
  field_simp

theorem toList_padStart (length : Nat) (text : String) :
    (padStart length text).toList = text.toList.leftpad length '0' := by
  rw [padStart, String.toList_ofList, List.leftpad, String.length_toList]

theorem toMajorUnitString_ok (supported : exponentOf currency = .ok exponent) (n : Nat) :
    ∃ text : String, toMajorUnitString n currency = .ok text ∧
      text.toList = decimal (wholeUnits exponent n) (minorUnits exponent n) := by
  unfold toMajorUnitString
  simp only [supported, bind, Except.bind, Int.not_ofNat_neg, if_false, pure, Except.pure]
  split_ifs with whole
  · refine ⟨_, rfl, ?_⟩
    rw [toString_natCast, wholeUnits, minorUnits, if_pos whole, decimal, if_pos rfl, whole, pow_zero,
      Nat.div_one]
  · refine ⟨_, rfl, ?_⟩
    have nonempty : minorUnits exponent n ≠ [] :=
      List.ne_nil_of_length_pos (by rw [length_minorUnits]; omega)
    have scale : (10 : Int) ^ exponent = (10 ^ exponent : Nat) := by push_cast; rfl
    rw [decimal, if_neg nonempty, String.toList_append, String.toList_append, scale,
      ← Int.natCast_ediv, ← Int.natCast_emod, toString_natCast, toList_padStart, toString_natCast,
      List.append_assoc, minorUnits, if_neg whole]
    rfl

/-- Amounts are read back from the texts that are written; and the texts that are read are exactly
digits, perhaps a point and digits, with zeros beyond the currency's exponent, at their value. -/
theorem major_units_exact (supported : exponentOf currency = .ok exponent) :
    (∀ minor : Int, 0 ≤ minor → ∃ text, toMajorUnitString minor currency = .ok text ∧
      fromMajorUnits (some (.string text)) currency = .ok minor) ∧
    ∀ (value : String) (amount : Int), fromMajorUnits (some (.string value)) currency = .ok amount ↔
      ∃ whole fraction, whole ≠ [] ∧ Digits whole ∧ Digits fraction ∧
        (trim value = whole ∧ fraction = [] ∨ trim value = whole ++ '.' :: fraction ∧ fraction ≠ []) ∧
        (∀ c ∈ fraction.drop exponent, c = '0') ∧
        (amount : ℚ) = (number whole + number fraction / 10 ^ fraction.length) * 10 ^ exponent := by
  refine ⟨?_, ?_⟩
  · intro minor nonneg
    obtain ⟨n, rfl⟩ := Int.eq_ofNat_of_zero_le nonneg
    obtain ⟨text, written, form⟩ := toMajorUnitString_ok supported n
    refine ⟨text, written, (fromMajorUnits_ok_iff supported).mpr ?_⟩
    refine ⟨wholeUnits exponent n, minorUnits exponent n, Nat.toDigits_ne_nil, digits_toDigits,
      digits_minorUnits exponent n, ?_, ?_, ?_⟩
    · rw [trim_decimal digits_toDigits Nat.toDigits_ne_nil (digits_minorUnits exponent n) form, form]
    · rw [List.drop_eq_nil_of_le (length_minorUnits exponent n).le]
      exact fun _ member => nomatch member
    · rw [decimalValue_units]
      push_cast
      field_simp
  · intro value amount
    rw [fromMajorUnits_ok_iff supported]
    refine exists_congr fun whole => exists_congr fun fraction => ?_
    have forms : trim value = decimal whole fraction ↔
        trim value = whole ∧ fraction = [] ∨ trim value = whole ++ '.' :: fraction ∧ fraction ≠ [] := by
      unfold decimal
      split_ifs with empty <;> simp [empty]
    rw [forms]
    rfl

theorem major_units_exact_usd :
    exponentOf "USD" = .ok 2 ∧
    (∃ text, toMajorUnitString 5 "USD" = .ok text ∧
      fromMajorUnits (some (.string text)) "USD" = .ok 5) ∧
    ∃ whole fraction, whole ≠ [] ∧ Digits whole ∧ Digits fraction ∧
      (trim " 2.500" = whole ∧ fraction = [] ∨ trim " 2.500" = whole ++ '.' :: fraction ∧ fraction ≠ []) ∧
      (∀ c ∈ fraction.drop 2, c = '0') ∧
      ((250 : Int) : ℚ) = (number whole + number fraction / 10 ^ fraction.length) * 10 ^ 2 :=
  have usd : exponentOf "USD" = .ok 2 := rfl
  ⟨usd, (major_units_exact usd).1 5 (by decide),
    ((major_units_exact usd).2 " 2.500" 250).mp (by decide +kernel)⟩

/-! ## Numbers -/

theorem toMajorUnitNumber_ok (supported : exponentOf currency = .ok exponent) {n : Nat}
    (safe : n < 2 ^ 53) : toMajorUnitNumber n currency = .ok (toDouble (n / 10 ^ exponent)) := by
  obtain ⟨text, written, form⟩ := toMajorUnitString_ok supported n
  have accepted : ¬ (n : Int) > MAX_SAFE_INTEGER := by
    unfold MAX_SAFE_INTEGER
    omega
  have read : readDecimal text.toList = some (wholeUnits exponent n, minorUnits exponent n) :=
    readDecimal_iff.mpr ⟨Nat.toDigits_ne_nil, digits_toDigits, digits_minorUnits exponent n, form⟩
  simp only [toMajorUnitNumber, accepted, written, bind, Except.bind, if_false, pure, Except.pure,
    numberOf, read, decimalValue_units]

/-- Whole units are doubles. -/
theorem toDouble_whole {n : Nat} (safe : n < 2 ^ 53) : toDouble (n / 10 ^ 0) = n := by
  rw [pow_zero, div_one]
  rcases Nat.eq_zero_or_pos n with rfl | positive
  · simp [toDouble]
  · have same : roundFloat 53 (-1074) (((n : Int) : ℚ) * 2 ^ (0 : Int)) = ((n : Int) : ℚ) * 2 ^ (0 : Int) :=
      roundFloat_self (by rw [Nat.abs_cast]; exact_mod_cast safe) (by decide) (by simpa using positive)
    simpa [toDouble] using same

/-- Hundredths are large enough for 53 bits. -/
theorem toDouble_hundredths (n : Nat) : toDouble ((n : ℚ) / 100) = roundBinary 53 (n / 100) := by
  rcases Nat.eq_zero_or_pos n with rfl | positive
  · simp [toDouble]
  · refine roundFloat_eq ?_
    have some_unit : (1 : ℚ) ≤ n := by exact_mod_cast positive
    have low : ((2 : ℕ) : ℚ) ^ (-7 : Int) ≤ (n : ℚ) / 100 := by
      rw [le_div_iff₀ (by norm_num)]
      norm_num
      linarith
    have log := (Int.zpow_le_iff_le_log (b := 2) (by decide) (by positivity)).mp low
    omega

/-- Below `2 ^ 46` units the doubles are closer together than the hundredths. -/
theorem toDouble_near {n : Nat} (low : n < 100 * 2 ^ 46) :
    |toDouble ((n : ℚ) / 100) - n / 100| ≤ 1 / 256 := by
  rcases Nat.eq_zero_or_pos n with rfl | positive
  · simp [toDouble]
  · rw [toDouble_hundredths]
    have below : (n : ℚ) / 100 < 2 ^ ((45 : Int) + 1) := by
      rw [div_lt_iff₀ (by norm_num)]
      exact_mod_cast (by omega : n < 2 ^ 46 * 100)
    have error := abs_roundBinary_sub_le 53 ((n : ℚ) / 100)
    have close : spacing 53 ((n : ℚ) / 100) ≤ 2 ^ ((45 : Int) - (53 : ℕ) + 1) :=
      spacing_le (by positivity) below
    norm_num at close
    exact error.trans (by linarith)

/-- From there on there are 16 doubles for 25 amounts. -/
theorem toDouble_far {n : Nat} (high : 100 * 2 ^ 46 ≤ n) (safe : n < 2 ^ 53) :
    toDouble ((n : ℚ) / 100) = ((16 * n + 12) / 25 : Nat) / 64 := by
  have above : (2 : ℚ) ^ (46 : Int) ≤ (n : ℚ) / 100 := by
    rw [le_div_iff₀ (by norm_num)]
    exact_mod_cast (by omega : 2 ^ 46 * 100 ≤ n)
  have below : (n : ℚ) / 100 < 2 ^ ((46 : Int) + 1) := by
    rw [div_lt_iff₀ (by norm_num)]
    exact_mod_cast (by omega : n < 2 ^ 47 * 100)
  have units : (n : ℚ) / 100 / 2 ^ ((46 : Int) - (53 : ℕ) + 1) =
      ((16 * n : Int) : ℚ) / (2 * (12 : Int) + 1 : Int) := by
    push_cast
    norm_num
    ring
  rw [toDouble_hundredths, roundBinary_eq above below, units, roundHalfEven_div_odd _ (by decide)]
  have whole : (16 * (n : Int) + 12) / (2 * 12 + 1) = ((16 * n + 12) / 25 : Nat) := by omega
  rw [whole, Int.cast_natCast]
  norm_num [div_eq_mul_inv]

/-- Amounts on either side of `2 ^ 46` units are told apart. -/
theorem toDouble_lt {n k : Nat} (low : n < 100 * 2 ^ 46) (high : 100 * 2 ^ 46 ≤ k) :
    toDouble ((n : ℚ) / 100) < toDouble ((k : ℚ) / 100) := by
  have border : ((2 ^ 46 : Nat) : ℚ) ≤ toDouble ((k : ℚ) / 100) := by
    rw [toDouble_hundredths]
    refine le_roundBinary (by decide) (by positivity) (binary_natCast (by decide)) ?_
    rw [le_div_iff₀ (by norm_num)]
    exact_mod_cast (by omega : 2 ^ 46 * 100 ≤ k)
  have near := abs_le.mp (toDouble_near low)
  have below : (n : ℚ) + 1 ≤ 100 * 2 ^ 46 := by exact_mod_cast low
  push_cast at border
  linarith [near.2]

/-- The other residues have the number of a neighbour. -/
private theorem shared_residue : ∀ r < 25, r ∉ [0, 3, 8, 11, 14, 17, 22] →
    (16 * (r + 1) + 12) / 25 = (16 * r + 12) / 25 ∨
      1 ≤ r ∧ (16 * (r - 1) + 12) / 25 = (16 * r + 12) / 25 := by
  decide

/-- Which amounts in hundredths have a number of their own. -/
theorem toDouble_own_iff {n : Nat} (safe : n < 2 ^ 53) :
    (∀ k : Nat, k < 2 ^ 53 → toDouble ((k : ℚ) / 100) = toDouble ((n : ℚ) / 100) → k = n) ↔
      n ≤ 100 * 2 ^ 46 ∨ n % 25 ∈ [0, 3, 8, 11, 14, 17, 22] := by
  rcases Nat.lt_or_ge n (100 * 2 ^ 46) with low | high
  · refine iff_of_true (fun k _ same => ?_) (.inl low.le)
    rcases Nat.lt_or_ge k (100 * 2 ^ 46) with low' | high'
    · have near := abs_le.mp (toDouble_near low)
      have near' := abs_le.mp (toDouble_near low')
      rw [same] at near'
      have close : |(k : ℚ) - n| < 1 := by
        rw [abs_lt]
        constructor <;> linarith [near.1, near.2, near'.1, near'.2]
      have whole : |(k : Int) - n| < 1 := by exact_mod_cast close
      have zero := Int.abs_lt_one_iff.mp whole
      omega
    · exact absurd same (toDouble_lt low high').ne'
  · have group : ∀ k : Nat, 100 * 2 ^ 46 ≤ k → k < 2 ^ 53 →
        (toDouble ((k : ℚ) / 100) = toDouble ((n : ℚ) / 100) ↔ (16 * k + 12) / 25 = (16 * n + 12) / 25) := by
      intro k high' safe'
      rw [toDouble_far high safe, toDouble_far high' safe', div_left_inj' (by norm_num)]
      norm_cast
    constructor
    · intro own
      by_contra shared
      rw [not_or] at shared
      have whole : (16 * n + 12) / 25 = 16 * (n / 25) + (16 * (n % 25) + 12) / 25 := by omega
      rcases shared_residue (n % 25) (Nat.mod_lt n (by decide)) shared.2 with next | ⟨some, previous⟩
      · have inside : n + 1 < 2 ^ 53 := by
          have last : n ≠ 2 ^ 53 - 1 := by
            rintro rfl
            exact absurd next (by decide)
          omega
        have same := own (n + 1) inside ((group (n + 1) (by omega) inside).mpr (by omega))
        omega
      · have same := own (n - 1) (by omega) ((group (n - 1) (by omega) (by omega)).mpr (by omega))
        omega
    · intro alone k safe' same
      rcases Nat.lt_or_ge k (100 * 2 ^ 46) with low' | high'
      · exact absurd same (toDouble_lt low' high).ne
      · rw [group k high' safe'] at same
        simp only [List.mem_cons, List.not_mem_nil, or_false] at alone
        omega

/-- No other accepted amount is sent as the same number exactly where the currency has no minor
units, up to `2 ^ 46` units, and beyond for 7 amounts in 25. -/
theorem toMajorUnitNumber_own_iff (supported : exponentOf currency = .ok exponent)
    (nonneg : 0 ≤ minor) (safe : minor ≤ MAX_SAFE_INTEGER) :
    (∀ other, 0 ≤ other → other ≤ MAX_SAFE_INTEGER →
      toMajorUnitNumber other currency = toMajorUnitNumber minor currency → other = minor) ↔
      exponent = 0 ∨ minor ≤ 100 * 2 ^ 46 ∨ minor % 25 ∈ [0, 3, 8, 11, 14, 17, 22] := by
  obtain ⟨n, rfl⟩ := Int.eq_ofNat_of_zero_le nonneg
  have limit : ∀ k : Nat, (k : Int) ≤ MAX_SAFE_INTEGER ↔ k < 2 ^ 53 := by
    intro k
    unfold MAX_SAFE_INTEGER
    omega
  have amounts : (∀ other, 0 ≤ other → other ≤ MAX_SAFE_INTEGER →
      toMajorUnitNumber other currency = toMajorUnitNumber n currency → other = n) ↔
      ∀ k : Nat, k < 2 ^ 53 →
        toDouble ((k : ℚ) / 10 ^ exponent) = toDouble ((n : ℚ) / 10 ^ exponent) → k = n := by
    constructor
    · intro own k small same
      refine Int.ofNat_inj.mp (own k (Int.natCast_nonneg k) ((limit k).mpr small) ?_)
      rw [toMajorUnitNumber_ok supported small, toMajorUnitNumber_ok supported ((limit n).mp safe), same]
    · intro own other nonneg' safe' same
      obtain ⟨k, rfl⟩ := Int.eq_ofNat_of_zero_le nonneg'
      rw [toMajorUnitNumber_ok supported ((limit k).mp safe'),
        toMajorUnitNumber_ok supported ((limit n).mp safe)] at same
      exact congrArg Int.ofNat (own k ((limit k).mp safe') (Except.ok.inj same))
  rw [amounts]
  rcases exponent_cases supported with rfl | rfl
  · refine iff_of_true (fun k small same => ?_) (.inl rfl)
    rw [toDouble_whole small, toDouble_whole ((limit n).mp safe)] at same
    exact_mod_cast same
  · have own := toDouble_own_iff ((limit n).mp safe)
    norm_num at own ⊢
    rw [own]
    omega

theorem toMajorUnitNumber_own_usd : 0 ≤ (150050 : Int) ∧ (150050 : Int) ≤ MAX_SAFE_INTEGER ∧
    ((∀ other, 0 ≤ other → other ≤ MAX_SAFE_INTEGER →
      toMajorUnitNumber other "USD" = toMajorUnitNumber 150050 "USD" → other = 150050) ↔
      2 = 0 ∨ (150050 : Int) ≤ 100 * 2 ^ 46 ∨ (150050 : Int) % 25 ∈ [0, 3, 8, 11, 14, 17, 22]) :=
  have usd : exponentOf "USD" = .ok 2 := rfl
  ⟨by decide, by decide, toMajorUnitNumber_own_iff usd (by decide) (by decide)⟩

/-- Two amounts a cent apart that are sent as one number. -/
theorem toMajorUnitNumber_shared : ¬ ∀ currency exponent, exponentOf currency = .ok exponent →
    ∀ minor other, 0 ≤ minor → minor ≤ MAX_SAFE_INTEGER → 0 ≤ other → other ≤ MAX_SAFE_INTEGER →
      toMajorUnitNumber minor currency = toMajorUnitNumber other currency → minor = other := by
  intro injective
  have same : toMajorUnitNumber 7036874417766401 "USD" = toMajorUnitNumber 7036874417766402 "USD" := by
    decide +kernel
  have equal := injective "USD" 2 rfl 7036874417766401 7036874417766402 (by decide) (by decide)
    (by decide) (by decide) same
  exact absurd equal (by decide)

end Finstack.PaymentProviders
