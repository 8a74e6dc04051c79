import Finstack.Foundation.Decimals
import Finstack.Model.Fx.Math

/-! # Rates as texts

Which texts `parseRate` accepts and what it makes of them, and that `formatRate` writes the shortest
text of the same value.
-/

namespace Finstack.FxMath

open Foundation

variable {text whole fraction : List Char} {value : String} {scaled : Int}

/-! ## The pattern -/

/-- What the groups of a match are. -/
structure Matches (text whole fraction : List Char) : Prop where
  whole_length : 1 ≤ whole.length ∧ whole.length ≤ 14
  fraction_length : fraction.length ≤ 10
  text : text = decimal whole fraction
  whole : Digits whole
  fraction : Digits fraction

theorem rate_pattern_eq (text : List Char) : RATE_PATTERN text =
    (readDecimal text).filter fun groups => groups.1.length ≤ 14 ∧ groups.2.length ≤ 10 := by
  unfold RATE_PATTERN readDecimal
  dsimp only
  by_cases empty : text.takeWhile Char.isDigit = []
  · simp [empty]
  · have some_digit := List.length_pos_of_ne_nil empty
    rw [if_neg empty]
    cases text.dropWhile Char.isDigit with
    | nil => simp [Option.filter, Nat.succ_le_of_lt some_digit]
    | cons point fraction =>
      cases fraction <;> simp [Option.filter, Nat.succ_le_of_lt some_digit]
      split_ifs <;> simp_all

theorem rate_pattern_iff : RATE_PATTERN text = some (whole, fraction) ↔
    Matches text whole fraction := by
  simp only [rate_pattern_eq, Option.filter_eq_some_iff, readDecimal_iff, decide_eq_true_eq]
  constructor
  · rintro ⟨⟨nonempty, digits, fraction_digits, text⟩, at_most, at_most'⟩
    exact ⟨⟨List.length_pos_of_ne_nil nonempty, at_most⟩, at_most', text, digits, fraction_digits⟩
  · rintro ⟨⟨some_digit, at_most⟩, at_most', text, digits, fraction_digits⟩
    exact ⟨⟨List.ne_nil_of_length_pos some_digit, digits, fraction_digits, text⟩, at_most, at_most'⟩

/-! ## Reading -/

/-- What the groups add up to. -/
def scaledOf (whole fraction : List Char) : Nat :=
  number whole * 10 ^ 10 + number (fraction.rightpad 10 '0')

theorem Matches.denotes (found : Matches text whole fraction) :
    decimalValue whole fraction = (scaledOf whole fraction : ℚ) / 10 ^ 10 := by
  rw [decimalValue_rightpad found.fraction_length]
  rfl

theorem Matches.scaledOf_lt (found : Matches text whole fraction) :
    scaledOf whole fraction < 10 ^ 24 := by
  have front : number whole < 10 ^ 14 :=
    (number_lt found.whole).trans_le (Nat.pow_le_pow_right (by decide) found.whole_length.2)
  have tail : number (fraction.rightpad 10 '0') < 10 ^ 10 := by
    have digits : Digits (fraction.rightpad 10 '0') :=
      digits_append.mpr ⟨found.fraction, digits_zeros⟩
    have small := number_lt digits
    rwa [List.length_rightpad, Nat.max_eq_left found.fraction_length] at small
  unfold scaledOf
  omega

theorem parseRate_ok_iff : parseRate value = .ok scaled ↔ ∃ whole fraction,
    Matches (trim value) whole fraction ∧ scaled = scaledOf whole fraction ∧ 0 < scaled := by
  have groups : ∀ whole fraction, bigInt whole * RATE_SCALE + bigInt (padEnd fraction RATE_DECIMALS) =
      (scaledOf whole fraction : Int) := by
    intro whole fraction
    unfold scaledOf
    push_cast
    rfl
  unfold parseRate
  cases found : RATE_PATTERN (trim value) with
  | none =>
    refine ⟨fun failed => (nomatch failed), ?_⟩
    rintro ⟨whole, fraction, other, -⟩
    rw [rate_pattern_iff.mpr other] at found
    cases found
  | some groups' =>
    obtain ⟨whole, fraction⟩ := groups'
    dsimp only
    rw [groups]
    constructor
    · intro parsed
      split_ifs at parsed with zero
      cases parsed
      exact ⟨whole, fraction, rate_pattern_iff.mp found, rfl, by omega⟩
    · rintro ⟨whole', fraction', other, rfl, positive⟩
      rw [rate_pattern_iff.mpr other] at found
      cases found
      exact if_neg (by omega)

/-! ## Writing -/

theorem rate_scale_eq : RATE_SCALE = (10 ^ 10 : Nat) := rfl

theorem toString_natCast (n : Nat) : (toString (n : Int)).toList = Nat.toDigits 10 n := by
  rw [show toString (n : Int) = toString n from rfl, Nat.toString_eq_repr, Nat.toList_repr]

/-- The digits of the whole units. -/
def wholeDigits (n : Nat) : List Char := Nat.toDigits 10 (n / 10 ^ 10)

/-- The digits behind the point. -/
def fractionDigits (n : Nat) : List Char :=
  significant ((Nat.toDigits 10 (n % 10 ^ 10)).leftpad 10 '0')

theorem formatRate_toList (n : Nat) :
    (formatRate n).toList = decimal (wholeDigits n) (fractionDigits n) := by
  have whole : (n : Int).tdiv RATE_SCALE = (n / 10 ^ 10 : Nat) := by
    rw [rate_scale_eq]
    rfl
  have rest : (n : Int).tmod RATE_SCALE = (n % 10 ^ 10 : Nat) := by
    rw [rate_scale_eq]
    rfl
  unfold formatRate
  rw [whole, rest, toString_natCast]
  change (if fractionDigits n = [] then _ else _ : String).toList = _
  unfold decimal
  split_ifs
  · exact toString_natCast _
  · rw [String.toList_append, String.toList_append, toString_natCast, List.append_assoc]
    exact congrArg (wholeDigits n ++ '.' :: ·) String.toList_ofList

theorem leftpad_length (n : Nat) : ((Nat.toDigits 10 (n % 10 ^ 10)).leftpad 10 '0').length = 10 := by
  have short := (Nat.length_toDigits_le_iff (b := 10) (n := n % 10 ^ 10) (k := 10)
    (by decide) (by decide)).mpr (Nat.mod_lt _ (by decide))
  rw [List.length_leftpad]
  omega

theorem fractionDigits_digits (n : Nat) : Digits (fractionDigits n) :=
  (digits_leftpad digits_toDigits).significant

theorem fractionDigits_length (n : Nat) : (fractionDigits n).length ≤ 10 :=
  length_significant_le.trans_eq (leftpad_length n)

/-- The zeros that were left out are read again. -/
theorem scaledOf_digits (n : Nat) : scaledOf (wholeDigits n) (fractionDigits n) = n := by
  have padded := rightpad_significant ((Nat.toDigits 10 (n % 10 ^ 10)).leftpad 10 '0')
  rw [leftpad_length] at padded
  unfold scaledOf fractionDigits wholeDigits
  rw [padded, number_leftpad, number_toDigits, number_toDigits]
  omega

theorem formatRate_matches {n : Nat} (bound : n < 10 ^ 24) :
    Matches (formatRate n).toList (wholeDigits n) (fractionDigits n) where
  whole := digits_toDigits
  fraction := fractionDigits_digits n
  whole_length := ⟨Nat.length_toDigits_pos,
    (Nat.length_toDigits_le_iff (b := 10) (k := 14) (by decide) (by decide)).mpr (by omega)⟩
  fraction_length := fractionDigits_length n
  text := formatRate_toList n

theorem formatRate_plain (n : Nat) : Plain (formatRate n).toList :=
  ⟨wholeDigits n, fractionDigits n, Nat.toDigits_ne_nil, digits_toDigits, fractionDigits_digits n,
    formatRate_toList n, toDigits_head _, getLast?_significant⟩

/-! ## Trimming -/

theorem not_isTrimmed_of_isDigit {c : Char} (digit : c.isDigit = true) : isTrimmed c = false := by
  have bounds := toNat_of_isDigit digit
  simp only [isTrimmed, Bool.or_eq_false_iff, Bool.and_eq_false_iff, decide_eq_false_iff_not,
    beq_eq_false_iff_ne]
  omega

/-- There is nothing to trim around digits. -/
theorem trim_decimal {value : String} (whole_digits : Digits whole) (nonempty : whole ≠ [])
    (fraction_digits : Digits fraction) (text : value.toList = decimal whole fraction) :
    trim value = value.toList := by
  have first : value.toList.dropWhile isTrimmed = value.toList := by
    obtain ⟨c, rest, rfl⟩ := List.exists_cons_of_ne_nil nonempty
    have front : ∃ tail, value.toList = c :: tail := by
      rw [text]
      unfold decimal
      split_ifs
      · exact ⟨rest, rfl⟩
      · exact ⟨_, rfl⟩
    obtain ⟨tail, split⟩ := front
    rw [split, List.dropWhile_cons_of_neg]
    simp [not_isTrimmed_of_isDigit (digits_cons.mp whole_digits).1]
  have last : ∀ present : value.toList ≠ [], isTrimmed (value.toList.getLast present) = false := by
    intro present
    apply not_isTrimmed_of_isDigit
    simp only [text, decimal]
    split_ifs with empty
    · exact whole_digits _ (List.getLast_mem _)
    · have end_ : (whole ++ '.' :: fraction).getLast (by simp) = fraction.getLast empty := by
        rw [List.getLast_append_of_ne_nil _ (by simp), List.getLast_cons empty]
      rw [end_]
      exact fraction_digits _ (List.getLast_mem _)
  rw [trim, first, List.rdropWhile_eq_self_iff]
  intro present
  rw [last present]
  decide

theorem parseRate_formatRate {n : Nat} (positive : 0 < n) (bound : n < 10 ^ 24) :
    parseRate (formatRate n) = .ok n := by
  have found := formatRate_matches bound
  have trimmed := trim_decimal found.whole Nat.toDigits_ne_nil found.fraction found.text
  refine parseRate_ok_iff.mpr ⟨wholeDigits n, fractionDigits n, trimmed ▸ found, ?_, ?_⟩
  · rw [scaledOf_digits]
  · exact_mod_cast positive

/-! ## Main result -/

/-- Reading undoes writing; writing what was read gives the plain text of the same value; and the
texts that can be read are exactly the decimal ones of these lengths that are not zero. -/
theorem rates_round_trip :
    (∀ scaled : Int, 0 < scaled → scaled < 10 ^ 24 → parseRate (formatRate scaled) = .ok scaled) ∧
    (∀ (value : String) (scaled : Int), parseRate value = .ok scaled →
      ∃ denoted : ℚ, Denotes (trim value) denoted ∧ Denotes (formatRate scaled).toList denoted ∧
        Plain (formatRate scaled).toList ∧
        (parseRate (formatRate scaled)).map formatRate = .ok (formatRate scaled)) ∧
    (∀ value : String, (∃ scaled, parseRate value = .ok scaled) ↔ ∃ whole fraction : List Char,
      Digits whole ∧ Digits fraction ∧ (1 ≤ whole.length ∧ whole.length ≤ 14) ∧
        (trim value = whole ∧ fraction = [] ∨
          trim value = whole ++ '.' :: fraction ∧ 1 ≤ fraction.length ∧ fraction.length ≤ 10) ∧
        0 < (number whole + number fraction / 10 ^ fraction.length : ℚ)) := by
  refine ⟨?_, ?_, ?_⟩
  · intro scaled positive bound
    obtain ⟨n, rfl⟩ := Int.eq_ofNat_of_zero_le positive.le
    exact parseRate_formatRate (by exact_mod_cast positive) (by exact_mod_cast bound)
  · intro value scaled parsed
    obtain ⟨whole, fraction, found, rfl, positive⟩ := parseRate_ok_iff.mp parsed
    have bound := found.scaledOf_lt
    have written := formatRate_matches bound
    have again := parseRate_formatRate (by exact_mod_cast positive) bound
    refine ⟨scaledOf whole fraction / 10 ^ 10, ?_, ?_, formatRate_plain _, ?_⟩
    · exact ⟨whole, fraction, List.ne_nil_of_length_pos found.whole_length.1, found.whole,
        found.fraction, found.text, found.denotes.symm⟩
    · refine ⟨wholeDigits _, _, Nat.toDigits_ne_nil, written.whole, written.fraction, written.text, ?_⟩
      rw [written.denotes, scaledOf_digits]
    · rw [again]
      rfl
  · intro value
    have positive_iff : ∀ {whole fraction}, Matches (trim value) whole fraction →
        (0 < (scaledOf whole fraction : Int) ↔ 0 < decimalValue whole fraction) := by
      intro whole fraction found
      rw [found.denotes, lt_div_iff₀ (by positivity), zero_mul]
      norm_cast
    constructor
    · rintro ⟨scaled, parsed⟩
      obtain ⟨whole, fraction, found, rfl, positive⟩ := parseRate_ok_iff.mp parsed
      refine ⟨whole, fraction, found.whole, found.fraction, found.whole_length, ?_,
        (positive_iff found).mp positive⟩
      have text := found.text
      unfold decimal at text
      split_ifs at text with empty
      · exact .inl ⟨text, empty⟩
      · exact .inr ⟨text, List.length_pos_of_ne_nil empty, found.fraction_length⟩
    · rintro ⟨whole, fraction, whole_digits, fraction_digits, length, shape, positive⟩
      have found : Matches (trim value) whole fraction := by
        rcases shape with ⟨text, rfl⟩ | ⟨text, some_digit, at_most⟩
        · exact ⟨length, by decide, text, whole_digits, .nil⟩
        · refine ⟨length, at_most, ?_, whole_digits, fraction_digits⟩
          rw [decimal, if_neg (List.ne_nil_of_length_pos some_digit), text]
      exact ⟨_, parseRate_ok_iff.mpr ⟨whole, fraction, found, rfl, (positive_iff found).mpr positive⟩⟩

example : (parseRate " 1550.2500000000 ").map formatRate = .ok "1550.25" := by decide +kernel

end Finstack.FxMath
