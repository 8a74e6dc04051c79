import Finstack.Foundation.BinaryRounding
import Finstack.Foundation.Decimals

/-! # Numbers and their texts

JavaScript numbers as the rationals they are. Only finite ones occur, and zero has no sign.
-/

namespace Finstack

open Foundation

structure Double where
  value : ℚ
  binary : ∃ m e : ℤ, |m| < 2 ^ 53 ∧ -1074 ≤ e ∧ e ≤ 971 ∧ value = m * 2 ^ e

/-- The double nearest to a number that is not negative. -/
def toDouble (x : ℚ) : ℚ := roundFloat 53 (-1074) x

/-- `Number(text)` of digits that a point and digits may follow; no other text is converted. -/
def numberOf (text : String) : ℚ :=
  match readDecimal text.toList with
  | some (whole, fraction) => toDouble (decimalValue whole fraction)
  | none => 0

/-- The text of the number `0.digits * 10 ^ n`, with neither zeros before nor behind the digits. -/
def formatNumber (digits : List Char) (n : Int) : List Char :=
  if digits.length ≤ n ∧ n ≤ 21 then digits ++ List.replicate (n - digits.length).toNat '0'
  else if 0 < n ∧ n ≤ 21 then digits.take n.toNat ++ '.' :: digits.drop n.toNat
  else if -6 < n ∧ n ≤ 0 then '0' :: '.' :: (List.replicate (-n).toNat '0' ++ digits)
  else
    let exponent := (if 0 < n then '+' else '-') :: Nat.toDigits 10 (n - 1).natAbs
    match digits with
    | [digit] => digit :: 'e' :: exponent
    | digit :: rest => digit :: '.' :: rest ++ 'e' :: exponent
    | [] => []

/-- Of the two numbers with `k` digits around `x`, which is less than `10 ^ n`, the closest that
reads back as `x`. -/
def closest (x : ℚ) (n : Int) (k : Nat) : Option Nat :=
  let scaled := x * 10 ^ (k - n)
  let below := ⌊scaled⌋.toNat
  let around := if 2 * Int.fract scaled ≤ 1 then [below, below + 1] else [below + 1, below]
  around.find? fun s => toDouble (s * 10 ^ (n - k)) = x

/-- `String(number)` of a number that is not negative: no more digits than it takes to read it back. -/
def numberText (x : ℚ) : String :=
  if x = 0 then "0"
  else
    let n := Int.log 10 x + 1
    -- so many digits have the value itself
    match (List.range 1100).findSome? fun k => (closest x n (k + 1)).map fun s => (k + 1, s) with
    | none => ""
    | some (k, s) =>
      let digits := Nat.toDigits 10 s
      String.ofList (formatNumber (significant digits) (n - k + digits.length))

/-- `String(number)` -/
def Double.text (number : Double) : String :=
  if number.value < 0 then "-" ++ numberText (-number.value) else numberText number.value

end Finstack
