import Finstack.Model.Numbers

/-! # Numbers are read back

The text of a double means a number to which no other double is nearest, so two doubles with one
text are the same.
-/

namespace Finstack

open Foundation

/-! ## What a text means -/

/-- Powers of ten by `e` and an exponent. -/
def exponentValue : List Char → Int
  | 'e' :: '+' :: digits => number digits
  | 'e' :: '-' :: digits => -number digits
  | _ => 0

/-- The number that a decimal text and an exponent mean. -/
def numeralValue (text : List Char) : ℚ :=
  match readDecimal (text.takeWhile (· ≠ 'e')) with
  | some (whole, fraction) =>
    decimalValue whole fraction * 10 ^ exponentValue (text.dropWhile (· ≠ 'e'))
  | none => 0

/-- What may follow the digits. -/
def Exponent (tail : List Char) : Prop :=
  tail = [] ∨ ∃ sign digits, (sign = '+' ∨ sign = '-') ∧ Digits digits ∧ tail = 'e' :: sign :: digits

variable {ds whole fraction tail : List Char} {n : Int}

theorem isDigit_ne_e {c : Char} (digit : c.isDigit = true) : c ≠ 'e' := by
  rintro rfl
  exact absurd digit (by decide)

theorem forall_mem_decimal {P : Char → Prop} (digit : ∀ c : Char, c.isDigit = true → P c) (point : P '.')
    (digits : Digits whole) (digits' : Digits fraction) : ∀ c ∈ decimal whole fraction, P c := by
  unfold decimal
  split_ifs
  · exact fun c member => digit c (digits c member)
  · simp only [List.forall_mem_append, List.forall_mem_cons]
    exact ⟨fun c member => digit c (digits c member), point, fun c member => digit c (digits' c member)⟩

theorem numeralValue_append (some_digit : whole ≠ []) (digits : Digits whole) (digits' : Digits fraction)
    (exponent : Exponent tail) :
    numeralValue (decimal whole fraction ++ tail) =
      decimalValue whole fraction * 10 ^ exponentValue tail := by
  have plain : ∀ c ∈ decimal whole fraction, c ≠ 'e' :=
    forall_mem_decimal (fun _ => isDigit_ne_e) (by decide) digits digits'
  have front : (decimal whole fraction ++ tail).takeWhile (· ≠ 'e') = decimal whole fraction ∧
      (decimal whole fraction ++ tail).dropWhile (· ≠ 'e') = tail := by
    rw [List.takeWhile_append_of_pos (by simpa using plain), List.dropWhile_append_of_pos (by simpa using plain)]
    rcases exponent with rfl | ⟨sign, rest, -, -, rfl⟩ <;> simp
  have read := readDecimal_iff.mpr ⟨some_digit, digits, digits', rfl⟩
  simp only [numeralValue, front, read]

/-- Digits on both sides of a point. -/
theorem decimalValue_append : decimalValue whole fraction =
    number (whole ++ fraction) * 10 ^ (-fraction.length : Int) := by
  rw [number_append, decimalValue, zpow_neg, zpow_natCast]
  push_cast
  field_simp

/-- The number is `0.ds * 10 ^ n`. -/
theorem formatNumber_spec (digits : Digits ds) (some_digit : ds ≠ []) (n : Int) :
    ∃ whole fraction tail, whole ≠ [] ∧ Digits whole ∧ Digits fraction ∧ Exponent tail ∧
      formatNumber ds n = decimal whole fraction ++ tail ∧
      decimalValue whole fraction * 10 ^ exponentValue tail = number ds * 10 ^ (n - ds.length) := by
  have length := List.length_pos_iff.mpr some_digit
  by_cases whole : ds.length ≤ n ∧ n ≤ 21
  · -- zeros follow
    refine ⟨ds ++ List.replicate (n - ds.length).toNat '0', [], [], by simp [some_digit],
      digits_append.mpr ⟨digits, digits_zeros⟩, .nil, .inl rfl, ?_, ?_⟩
    · rw [formatNumber, if_pos whole, decimal, if_pos rfl, List.append_nil]
    · have zeros : n - ds.length = ((n - ds.length).toNat : Int) := by omega
      rw [decimalValue_append, List.append_nil, number_append, number_zeros, List.length_replicate, zeros]
      simp [exponentValue]
  by_cases inside : 0 < n ∧ n ≤ 21
  · -- the point is between two digits
    refine ⟨ds.take n.toNat, ds.drop n.toNat, [], ?_, ?_, ?_, .inl rfl, ?_, ?_⟩
    · simp only [ne_eq, List.take_eq_nil_iff, not_or]
      exact ⟨by omega, some_digit⟩
    · exact fun c member => digits c (List.mem_of_mem_take member)
    · exact fun c member => digits c (List.mem_of_mem_drop member)
    · have rest : ds.drop n.toNat ≠ [] := by
        simp only [ne_eq, List.drop_eq_nil_iff]
        omega
      rw [formatNumber, if_neg whole, if_pos inside, decimal, if_neg rest, List.append_nil]
    · have point : -((ds.drop n.toNat).length : Int) = n - ds.length := by
        rw [List.length_drop]
        omega
      rw [decimalValue_append, List.take_append_drop, point]
      simp [exponentValue]
  by_cases behind : -6 < n ∧ n ≤ 0
  · -- zeros are between the point and the digits
    refine ⟨['0'], List.replicate (-n).toNat '0' ++ ds, [], by simp, by simp [Digits],
      digits_append.mpr ⟨digits_zeros, digits⟩, .inl rfl, ?_, ?_⟩
    · rw [formatNumber, if_neg whole, if_neg inside, if_pos behind, decimal, if_neg (by simp [some_digit]),
        List.append_nil]
      rfl
    · have point : -((List.replicate (-n).toNat '0' ++ ds).length : Int) = n - ds.length := by
        rw [List.length_append, List.length_replicate]
        omega
      have zero : number ['0'] = 0 := rfl
      rw [decimalValue_append, point, number_append, number_append]
      simp [exponentValue, zero]
  · -- one digit, and an exponent
    obtain ⟨digit, rest, rfl⟩ := List.exists_cons_of_ne_nil some_digit
    obtain ⟨first, others⟩ := digits_cons.mp digits
    refine ⟨[digit], rest, 'e' :: (if 0 < n then '+' else '-') :: Nat.toDigits 10 (n - 1).natAbs,
      by simp, by simpa [Digits] using first, others,
      .inr ⟨_, _, by split_ifs <;> simp, digits_toDigits, rfl⟩, ?_, ?_⟩
    · rw [formatNumber, if_neg whole, if_neg inside, if_neg behind]
      cases rest <;> simp [decimal]
    · have exponent : exponentValue ('e' :: (if 0 < n then '+' else '-') :: Nat.toDigits 10 (n - 1).natAbs) =
          n - 1 := by
        split_ifs <;> simp only [exponentValue, number_toDigits] <;> omega
      have point : -(rest.length : Int) + (n - 1) = n - (digit :: rest).length := by
        rw [List.length_cons]
        omega
      rw [decimalValue_append, exponent, mul_assoc, ← zpow_add₀ (by norm_num), point]
      rfl

/-! ## Texts of doubles -/

variable {x y : ℚ} {k s : Nat}

/-- A double is nearest to itself. -/
theorem toDouble_self {number : Double} (nonneg : 0 ≤ number.value) :
    toDouble number.value = number.value := by
  obtain ⟨x, m, e, bound, least, _, same⟩ := number
  dsimp only at nonneg ⊢
  rcases eq_or_lt_of_le nonneg with zero | positive
  · rw [← zero]
    exact roundFloat_zero 53 (-1074)
  · subst same
    exact roundFloat_self bound least positive

theorem closest_spec (found : closest x n k = some s) : toDouble (s * 10 ^ (n - k)) = x := by
  simpa using List.find?_some found

theorem closest_whole (value : x * 10 ^ ((k : Int) - n) = s) (fixed : toDouble x = x) :
    closest x n k = some s := by
  have back : (s : ℚ) * 10 ^ (n - k) = x := by
    rw [← value, mul_assoc, ← zpow_add₀ (by norm_num)]
    simp
  have start : toDouble (s * 10 ^ (n - k)) = x := by rw [back, fixed]
  simp [closest, value, start]

theorem log_lt {l : Int} (positive : 0 < x) (high : x < 10 ^ l) : Int.log 10 x < l :=
  (Int.lt_zpow_iff_log_lt (by decide) positive).mp (by exact_mod_cast high)

theorem le_log {l : Int} (positive : 0 < x) (low : 10 ^ l ≤ x) : l ≤ Int.log 10 x :=
  (Int.zpow_le_iff_le_log (by decide) positive).mp (by exact_mod_cast low)

/-- Some digits have the value itself. -/
theorem exists_whole {number : Double} (positive : 0 < number.value) :
    ∃ k < 1100, ∃ s : Nat, number.value * 10 ^ (((k + 1 : Nat) : Int) - (Int.log 10 number.value + 1)) = s := by
  obtain ⟨x, m, e, bound, least, most, same⟩ := number
  dsimp only at positive ⊢
  have some_bit : 0 < m := by
    by_contra none
    have nonpos : (m : ℚ) ≤ 0 := by exact_mod_cast not_lt.mp none
    have := mul_nonpos_of_nonpos_of_nonneg nonpos (zpow_pos (by norm_num : (0 : ℚ) < 2) e).le
    linarith
  obtain ⟨w, rfl⟩ := Int.eq_ofNat_of_zero_le some_bit.le
  have significand : (w : ℚ) < 2 ^ 53 := by
    rw [abs_of_pos some_bit] at bound
    exact_mod_cast bound
  have one : (1 : ℚ) ≤ w := by exact_mod_cast some_bit
  rw [Int.cast_natCast] at same
  rcases Int.le_total 0 e with whole | fraction
  · -- a whole number has its own digits
    obtain ⟨d, rfl⟩ := Int.eq_ofNat_of_zero_le whole
    rw [zpow_natCast] at same
    have power : (2 : ℚ) ^ d ≤ 2 ^ 971 := pow_le_pow_right₀ (by norm_num) (by omega)
    have some_power : (1 : ℚ) ≤ 2 ^ d := one_le_pow₀ (by norm_num)
    have low : (10 : ℚ) ^ (0 : Int) ≤ x := by
      rw [same, zpow_zero]
      nlinarith
    have high : x < 10 ^ ((1100 : Nat) : Int) := by
      rw [zpow_natCast]
      calc
        x = w * 2 ^ d := same
        _ < 2 ^ 53 * 2 ^ 971 := mul_lt_mul significand power (by positivity) (by positivity)
        _ = 2 ^ (53 + 971) := (pow_add 2 53 971).symm
        _ ≤ 10 ^ (53 + 971) := pow_le_pow_left₀ (by norm_num) (by norm_num) (53 + 971)
        _ < 10 ^ 1100 := pow_lt_pow_right₀ (by norm_num) (by norm_num)
    have least_log := le_log positive low
    have most_log := log_lt positive high
    refine ⟨(Int.log 10 x).toNat, by omega, w * 2 ^ d, ?_⟩
    have none_behind : (((Int.log 10 x).toNat + 1 : Nat) : Int) - (Int.log 10 x + 1) = 0 := by omega
    rw [none_behind, zpow_zero, mul_one, same]
    push_cast
    rfl
  · -- each binary digit behind the point takes a decimal one
    obtain ⟨d, exponent⟩ := Int.eq_ofNat_of_zero_le (Int.neg_nonneg_of_nonpos fraction)
    obtain rfl : e = -(d : Int) := by omega
    rw [zpow_neg, zpow_natCast] at same
    have low : (10 : ℚ) ^ (-(d : Int)) ≤ x := by
      rw [same, zpow_neg, zpow_natCast]
      have : ((10 : ℚ) ^ d)⁻¹ ≤ (2 ^ d)⁻¹ :=
        inv_anti₀ (by positivity) (pow_le_pow_left₀ (by norm_num) (by norm_num) d)
      nlinarith [inv_pos.mpr (by positivity : (0 : ℚ) < 2 ^ d)]
    have high : x < 10 ^ (16 : Int) := by
      calc
        x = w * (2 ^ d)⁻¹ := same
        _ ≤ w * 1 := mul_le_mul_of_nonneg_left (inv_le_one_of_one_le₀ (one_le_pow₀ (by norm_num))) (by positivity)
        _ < 10 ^ (16 : Int) := by
          norm_num at significand ⊢
          linarith
    have least_log := le_log positive low
    have most_log := log_lt positive high
    refine ⟨(Int.log 10 x + d).toNat, by omega, w * 5 ^ d, ?_⟩
    have behind : (((Int.log 10 x + d).toNat + 1 : Nat) : Int) - (Int.log 10 x + 1) = d := by omega
    have ten : (10 : ℚ) ^ d = 2 ^ d * 5 ^ d := by
      rw [← mul_pow]
      norm_num
    rw [behind, zpow_natCast, same, ten]
    push_cast
    field_simp

theorem numberText_zero : numberText 0 = "0" := by
  rw [numberText, if_pos rfl]

/-- The digits of a text, which are read back as the number. -/
theorem numberText_spec {number : Double} (positive : 0 < number.value) :
    ∃ ds n, Digits ds ∧ ds ≠ [] ∧ (numberText number.value).toList = formatNumber ds n ∧
      toDouble (Foundation.number ds * 10 ^ (n - ds.length)) = number.value := by
  obtain ⟨k, few, s, value⟩ := exists_whole positive
  have fixed := toDouble_self positive.le
  have some_digits : ((List.range 1100).findSome? fun k =>
      (closest number.value (Int.log 10 number.value + 1) (k + 1)).map fun s => (k + 1, s)).isSome := by
    rw [List.findSome?_isSome_iff]
    exact ⟨k, List.mem_range.mpr few, by rw [closest_whole value fixed]; rfl⟩
  obtain ⟨⟨k', s'⟩, found⟩ := Option.isSome_iff_exists.mp some_digits
  obtain ⟨i, -, shortest⟩ := List.exists_of_findSome?_eq_some found
  obtain ⟨s'', near, pair⟩ := Option.map_eq_some_iff.mp shortest
  cases pair
  have back := closest_spec near
  obtain ⟨zeros, split⟩ := significant_append_zeros (Nat.toDigits 10 s')
  have digits : Digits (significant (Nat.toDigits 10 s')) := digits_toDigits.significant
  have written : number.value ≠ 0 := positive.ne'
  have text : (numberText number.value).toList = formatNumber (significant (Nat.toDigits 10 s'))
      (Int.log 10 number.value + 1 - (i + 1 : Nat) + (Nat.toDigits 10 s').length) := by
    simp only [numberText, if_neg written, found, String.toList_ofList]
  have count := congrArg Foundation.number split
  have length := congrArg List.length split
  rw [number_toDigits, number_append, number_zeros, List.length_replicate, Nat.add_zero] at count
  rw [List.length_append, List.length_replicate] at length
  refine ⟨_, _, digits, ?_, text, ?_⟩
  · rintro none
    rw [none] at count
    rw [count] at back
    simp [toDouble, number_nil] at back
    exact written back.symm
  · have places : Int.log 10 number.value + 1 - (i + 1 : Nat) + (Nat.toDigits 10 s').length -
        (significant (Nat.toDigits 10 s')).length =
        (zeros : Int) + (Int.log 10 number.value + 1 - (i + 1 : Nat)) := by
      rw [length]
      push_cast
      ring
    rw [places, zpow_add₀ (by norm_num), ← mul_assoc, zpow_natCast]
    rw [count] at back
    push_cast at back ⊢
    exact back

theorem toDouble_numeralValue {number : Double} (nonneg : 0 ≤ number.value) :
    toDouble (numeralValue (numberText number.value).toList) = number.value := by
  rcases eq_or_lt_of_le nonneg with zero | positive
  · have none : numeralValue ['0'] = 0 := by
      have value := numeralValue_append (List.cons_ne_nil '0' []) (by simp [Digits]) .nil (.inl rfl)
      rw [decimal, if_pos rfl, List.append_nil] at value
      rw [value, decimalValue_append]
      simp only [List.append_nil, List.length_nil, mul_eq_zero]
      exact .inl (.inl rfl)
    rw [← zero, numberText_zero]
    exact (congrArg toDouble none).trans (roundFloat_zero 53 (-1074))
  · obtain ⟨ds, n, digits, some_digit, text, back⟩ := numberText_spec positive
    obtain ⟨whole, fraction, tail, front, digits', digits'', exponent, form, value⟩ :=
      formatNumber_spec digits some_digit n
    rw [text, form, numeralValue_append front digits' digits'' exponent, value, back]

/-- What a number's text begins with, and what it consists of. -/
theorem numberText_form {number : Double} (nonneg : 0 ≤ number.value) :
    ∃ c rest, (numberText number.value).toList = c :: rest ∧ c.isDigit = true ∧
      ∀ d ∈ c :: rest, d.isDigit = true ∨ d ∈ ['.', 'e', '+', '-'] := by
  rcases eq_or_lt_of_le nonneg with zero | positive
  · rw [← zero, numberText_zero]
    exact ⟨'0', [], rfl, rfl, forall_mem_of_all (by decide)⟩
  · obtain ⟨ds, n, digits, some_digit, text, -⟩ := numberText_spec positive
    obtain ⟨whole, fraction, tail, front, digits', digits'', exponent, form, -⟩ :=
      formatNumber_spec digits some_digit n
    obtain ⟨c, rest, rfl⟩ := List.exists_cons_of_ne_nil front
    obtain ⟨rest', first⟩ : ∃ rest', decimal (c :: rest) fraction ++ tail = c :: rest' := by
      unfold decimal
      split_ifs
      · exact ⟨_, rfl⟩
      · exact ⟨_, rfl⟩
    refine ⟨c, rest', (text.trans form).trans first, digits' c List.mem_cons_self, ?_⟩
    rw [← first]
    refine List.forall_mem_append.mpr ⟨forall_mem_decimal (fun _ => .inl) (.inr (by decide)) digits' digits'', ?_⟩
    rcases exponent with rfl | ⟨sign, power, signs, power_digits, rfl⟩
    · exact fun d member => absurd member List.not_mem_nil
    · refine List.forall_mem_cons.mpr ⟨.inr (by decide), List.forall_mem_cons.mpr ⟨.inr ?_, ?_⟩⟩
      · rcases signs with rfl | rfl <;> decide
      · exact fun d member => .inl (power_digits d member)

namespace Double

/-- The number with the other sign. -/
def opposite (number : Double) : Double where
  value := -number.value
  binary := by
    obtain ⟨m, e, bound, least, most, same⟩ := number.binary
    exact ⟨-m, e, by rwa [abs_neg], least, most, by rw [same]; push_cast; ring⟩

variable {number other : Double}

theorem text_form (number : Double) : ∃ c rest, number.text.toList = c :: rest ∧
    (c.isDigit = true ∨ c = '-') ∧ ∀ d ∈ c :: rest, d.isDigit = true ∨ d ∈ ['.', 'e', '+', '-'] := by
  unfold text
  split_ifs with negative
  · obtain ⟨c, rest, text, -, all⟩ := numberText_form (show 0 ≤ number.opposite.value from neg_nonneg.mpr negative.le)
    refine ⟨'-', c :: rest, ?_, .inr rfl, List.forall_mem_cons.mpr ⟨.inr (by decide), all⟩⟩
    rw [String.toList_append]
    exact congrArg ('-' :: ·) text
  · obtain ⟨c, rest, text, digit, all⟩ := numberText_form (not_lt.mp negative)
    exact ⟨c, rest, text, .inl digit, all⟩

/-- A text with a sign is not one without. -/
theorem sign_ne (nonneg : 0 ≤ other.value) (text : String) : "-" ++ text ≠ numberText other.value := by
  intro same
  obtain ⟨c, rest, split, digit, -⟩ := numberText_form nonneg
  rw [← same, String.toList_append] at split
  have minus : '-' = c := (List.cons.inj split).1
  rw [← minus] at digit
  exact absurd digit (by decide)

theorem text_injective (same : number.text = other.text) : number = other := by
  have value : number.value = other.value := by
    unfold text at same
    split_ifs at same with negative negative' negative'
    · have back := toDouble_numeralValue (show 0 ≤ number.opposite.value from neg_nonneg.mpr negative.le)
      have back' := toDouble_numeralValue (show 0 ≤ other.opposite.value from neg_nonneg.mpr negative'.le)
      dsimp only [opposite] at back back'
      have chars := congrArg String.toList same
      rw [String.toList_append, String.toList_append] at chars
      rw [List.append_cancel_left chars, back'] at back
      exact neg_injective back.symm
    · exact absurd same (sign_ne (not_lt.mp negative') _)
    · exact absurd same.symm (sign_ne (not_lt.mp negative) _)
    · rw [← toDouble_numeralValue (not_lt.mp negative), same, toDouble_numeralValue (not_lt.mp negative')]
  cases number
  cases other
  cases value
  rfl

end Double

end Finstack
