import Mathlib.Algebra.Order.Field.Rat
import Mathlib.Data.List.DropRight
import Mathlib.Tactic.FieldSimp
import Mathlib.Tactic.Linarith

/-! # Decimal texts

Digit strings and the numbers they write, with zeros put before and behind them; and decimal texts,
digits that a point and more digits may follow.
-/

namespace Finstack.Foundation

variable {cs ds whole fraction : List Char} {n k : Nat}

/-- A list is checked one by one, also where its type is finite. -/
theorem forall_mem_of_all {α : Type} {P : α → Prop} [DecidablePred P] {l : List α}
    (all : (l.all fun a => decide (P a)) = true) : ∀ a ∈ l, P a := by
  simpa using all

/-! ## Digit strings -/

def Digits (cs : List Char) : Prop := ∀ c ∈ cs, c.isDigit = true

instance (cs : List Char) : Decidable (Digits cs) :=
  List.decidableBAll (fun c : Char => c.isDigit = true) cs

/-- The number a digit string writes. -/
def number (cs : List Char) : Nat := Nat.ofDigitChars 10 cs 0

theorem Digits.nil : Digits [] := fun _ member => nomatch member

theorem digits_append : Digits (cs ++ ds) ↔ Digits cs ∧ Digits ds := List.forall_mem_append

theorem digits_cons {c : Char} : Digits (c :: cs) ↔ c.isDigit = true ∧ Digits cs :=
  List.forall_mem_cons

theorem digits_zeros : Digits (List.replicate k '0') := by
  intro c member
  rw [List.eq_of_mem_replicate member]
  rfl

theorem digits_toDigits : Digits (Nat.toDigits 10 n) :=
  fun _ member => Nat.isDigit_of_mem_toDigits (by decide) (by decide) member

theorem number_append : number (cs ++ ds) = number cs * 10 ^ ds.length + number ds := by
  rw [number, Nat.ofDigitChars_append, Nat.ofDigitChars_eq_ofDigitChars_zero, Nat.mul_comm]
  rfl

@[simp] theorem number_nil : number [] = 0 := rfl

@[simp] theorem number_toDigits : number (Nat.toDigits 10 n) = n := Nat.ofDigitChars_ten_toDigits

@[simp] theorem number_zeros : number (List.replicate k '0') = 0 := by
  rw [number, Nat.ofDigitChars_replicate_zero, Nat.mul_zero]

theorem number_singleton (c : Char) : number [c] = c.toNat - 48 := by
  simp [number, Nat.ofDigitChars_cons]

/-- A digit is one of ten. -/
theorem toNat_of_isDigit {c : Char} (digit : c.isDigit = true) : 48 ≤ c.toNat ∧ c.toNat ≤ 57 := by
  simp only [Char.isDigit, Bool.and_eq_true, decide_eq_true_eq] at digit
  exact ⟨digit.1, digit.2⟩

theorem number_cons {c : Char} : number (c :: cs) = (c.toNat - 48) * 10 ^ cs.length + number cs := by
  rw [← List.singleton_append, number_append, number_singleton]

theorem number_lt (digits : Digits cs) : number cs < 10 ^ cs.length := by
  induction cs with
  | nil => simp
  | cons c cs ih =>
    obtain ⟨digit, rest⟩ := digits_cons.mp digits
    have small := ih rest
    have bounds := toNat_of_isDigit digit
    rw [number_cons, List.length_cons, Nat.pow_succ]
    have top : (c.toNat - 48) * 10 ^ cs.length ≤ 9 * 10 ^ cs.length :=
      Nat.mul_le_mul_right _ (by omega)
    omega

/-! ## Zeros before and behind -/

/-- Zeros before a number do not change it. -/
theorem number_leftpad : number (cs.leftpad k '0') = number cs := by
  rw [List.leftpad, number_append, number_zeros, Nat.zero_mul, Nat.zero_add]

theorem digits_leftpad (digits : Digits cs) : Digits (cs.leftpad k '0') :=
  digits_append.mpr ⟨digits_zeros, digits⟩

/-- Zeros behind a number, up to a length. -/
theorem number_rightpad (k : Nat) :
    number (cs.rightpad k '0') = number cs * 10 ^ (k - cs.length) := by
  rw [List.rightpad, number_append, number_zeros, List.length_replicate, Nat.add_zero]

/-- What is left of digits without the zeros behind them. -/
def significant (cs : List Char) : List Char := cs.rdropWhile (· = '0')

theorem significant_append_zeros (cs : List Char) :
    ∃ k, cs = significant cs ++ List.replicate k '0' := by
  refine ⟨(cs.rtakeWhile (· = '0')).length, ?_⟩
  have zeros : cs.rtakeWhile (· = '0') = List.replicate (cs.rtakeWhile (· = '0')).length '0' :=
    List.eq_replicate_iff.mpr ⟨rfl, fun c member => by simpa using List.mem_rtakeWhile_imp member⟩
  rw [← zeros]
  exact (List.rdropWhile_append_rtakeWhile ..).symm

theorem Digits.significant (digits : Digits cs) : Digits (significant cs) :=
  fun c member => digits c ((List.rdropWhile_prefix ..).subset member)

theorem length_significant_le : (significant cs).length ≤ cs.length :=
  (List.rdropWhile_prefix ..).length_le

theorem getLast?_significant : (significant cs).getLast? ≠ some '0' := by
  intro last
  have nonempty : significant cs ≠ [] := by
    intro empty
    rw [empty] at last
    cases last
  rw [List.getLast?_eq_some_getLast nonempty, Option.some_inj] at last
  exact List.rdropWhile_last_not (· = '0') cs nonempty (decide_eq_true last)

/-- The zeros come back. -/
theorem rightpad_significant (cs : List Char) : (significant cs).rightpad cs.length '0' = cs := by
  obtain ⟨k, split⟩ := significant_append_zeros cs
  have length := congrArg List.length split
  rw [List.length_append, List.length_replicate] at length
  have zeros : cs.length - (significant cs).length = k := by omega
  rw [List.rightpad, zeros]
  exact split.symm

/-- What is significant fits where all that is behind is zeros. -/
theorem length_significant_le_iff : (significant cs).length ≤ k ↔ ∀ c ∈ cs.drop k, c = '0' := by
  obtain ⟨zeros, split⟩ := significant_append_zeros cs
  constructor
  · intro short c member
    rw [split, List.drop_append, List.drop_eq_nil_of_le short, List.nil_append] at member
    exact List.eq_of_mem_replicate (List.mem_of_mem_drop member)
  · intro behind
    by_contra long
    have nonempty : significant cs ≠ [] := List.ne_nil_of_length_pos (by omega)
    apply @getLast?_significant cs
    rw [List.getLast?_eq_some_getLast nonempty, Option.some_inj]
    have rest : (significant cs).drop k ≠ [] := List.ne_nil_of_length_pos (by
      rw [List.length_drop]
      omega)
    have member : (significant cs).getLast nonempty ∈ (significant cs).drop k := by
      rw [← List.getLast_drop rest]
      exact List.getLast_mem rest
    have tail : cs.drop k = (significant cs).drop k ++
        (List.replicate zeros '0').drop (k - (significant cs).length) :=
      (congrArg (List.drop k) split).trans List.drop_append
    exact behind _ (tail ▸ List.mem_append_left _ member)

/-! ## Texts with a point -/

/-- A fraction, if there is one, follows a point. -/
def decimal (whole fraction : List Char) : List Char :=
  if fraction = [] then whole else whole ++ '.' :: fraction

def decimalValue (whole fraction : List Char) : ℚ :=
  number whole + number fraction / 10 ^ fraction.length

/-- Some digits that a point and more digits may follow, and what they denote. -/
def Denotes (text : List Char) (value : ℚ) : Prop :=
  ∃ whole fraction, whole ≠ [] ∧ Digits whole ∧ Digits fraction ∧ text = decimal whole fraction ∧
    value = decimalValue whole fraction

/-- A decimal text without superfluous zeros or a dangling point. -/
def Plain (text : List Char) : Prop :=
  ∃ whole fraction, whole ≠ [] ∧ Digits whole ∧ Digits fraction ∧ text = decimal whole fraction ∧
    (whole.head? = some '0' → whole = ['0']) ∧ fraction.getLast? ≠ some '0'

theorem toDigits_head (n : Nat) :
    (Nat.toDigits 10 n).head? = some '0' → Nat.toDigits 10 n = ['0'] := by
  intro head
  obtain ⟨rest, split⟩ : ∃ rest, Nat.toDigits 10 n = '0' :: rest := List.head?_eq_some_iff.mp head
  rcases Nat.eq_zero_or_pos n with rfl | positive
  · rfl
  · -- without the zero, the same number would take a digit less
    have digits : Digits rest := (digits_cons.mp (split ▸ digits_toDigits)).2
    have written : number rest = n := by
      have := congrArg number split
      rw [number_toDigits, number_cons] at this
      simpa using this.symm
    have short : n < 10 ^ rest.length := written ▸ number_lt digits
    cases rest with
    | nil => exact split
    | cons c rest =>
      have := (Nat.length_toDigits_le_iff (b := 10) (by decide) (Nat.succ_pos rest.length)).mpr short
      rw [split] at this
      simp at this

theorem not_isDigit_point : ¬ '.'.isDigit = true := by decide

/-- The digits in front, and what follows them. -/
theorem takeWhile_decimal (digits : Digits whole) (fraction : List Char) :
    (decimal whole fraction).takeWhile Char.isDigit = whole ∧
      (decimal whole fraction).dropWhile Char.isDigit =
        if fraction = [] then [] else '.' :: fraction := by
  unfold decimal
  split_ifs
  · exact ⟨List.takeWhile_eq_self_iff.mpr digits, List.dropWhile_eq_nil_iff.mpr digits⟩
  · constructor
    · rw [List.takeWhile_append_of_pos digits, List.takeWhile_cons_of_neg not_isDigit_point,
        List.append_nil]
    · rw [List.dropWhile_append_of_pos digits, List.dropWhile_cons_of_neg not_isDigit_point]

/-- The digits before the point and those after it; a missing fraction is empty. -/
def readDecimal (text : List Char) : Option (List Char × List Char) :=
  let whole := text.takeWhile Char.isDigit
  if whole = [] then none
  else
    match text.dropWhile Char.isDigit with
    | [] => some (whole, [])
    | point :: fraction =>
      if point = '.' ∧ fraction.all Char.isDigit ∧ fraction ≠ [] then some (whole, fraction)
      else none

/-- Decimal texts are read in one way, and nothing else is read. -/
theorem readDecimal_iff {text : List Char} : readDecimal text = some (whole, fraction) ↔
    whole ≠ [] ∧ Digits whole ∧ Digits fraction ∧ text = decimal whole fraction := by
  constructor
  · intro found
    have split := List.takeWhile_append_dropWhile (p := Char.isDigit) (l := text)
    have digits : Digits (text.takeWhile Char.isDigit) := fun _ member => List.mem_takeWhile_imp member
    unfold readDecimal at found
    dsimp only at found
    split_ifs at found with empty
    split at found
    · rename_i rest
      cases found
      rw [rest, List.append_nil] at split
      exact ⟨empty, digits, .nil, split.symm⟩
    · rename_i point tail rest
      split_ifs at found with allowed
      obtain ⟨rfl, tail_digits, some_digit⟩ := allowed
      cases found
      refine ⟨empty, digits, List.all_eq_true.mp tail_digits, ?_⟩
      rw [decimal, if_neg some_digit, ← rest, split]
  · rintro ⟨nonempty, digits, fraction_digits, rfl⟩
    obtain ⟨front, rest⟩ := takeWhile_decimal digits fraction
    unfold readDecimal
    rw [front, rest]
    dsimp only
    rw [if_neg nonempty]
    by_cases empty : fraction = []
    · rw [if_pos empty, empty]
    · rw [if_neg empty]
      exact if_pos ⟨rfl, List.all_eq_true.mpr fraction_digits, empty⟩

/-- A fraction means the same with all its zeros. -/
theorem decimalValue_rightpad (fits : fraction.length ≤ k) :
    decimalValue whole fraction =
      (number whole * 10 ^ k + number (fraction.rightpad k '0') : Nat) / 10 ^ k := by
  rw [number_rightpad, decimalValue]
  have power : (10 : ℚ) ^ k = 10 ^ (k - fraction.length) * 10 ^ fraction.length := by
    rw [← pow_add, Nat.sub_add_cancel fits]
  push_cast
  rw [power]
  field_simp

/-- Zeros at its end add nothing to a fraction. -/
theorem decimalValue_significant :
    decimalValue whole (significant fraction) = decimalValue whole fraction := by
  rw [decimalValue_rightpad (k := fraction.length) length_significant_le, rightpad_significant,
    decimalValue]
  push_cast
  field_simp

end Finstack.Foundation
