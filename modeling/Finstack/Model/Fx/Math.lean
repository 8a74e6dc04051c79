import Finstack.Model.Ledger.Posting
import Mathlib.Data.List.DropRight

/-! # Exact FX arithmetic

Rates as decimal texts and as scaled integers, and conversions between amounts in minor units. A
rate is quote units per base unit, scaled by `10 ^ RATE_DECIMALS`. Division of bigints truncates.
-/

namespace Finstack.FxMath

def RATE_DECIMALS : Nat := 10

def RATE_SCALE : Int := 10 ^ RATE_DECIMALS

def BPS : Int := 10000

def invalidRateError (message : String) : Err := .internal "InvalidRateError" message

def rangeError (message : String) : Err := .internal "RangeError" message

/-! ## Rates as texts -/

/-- `value.trim()` -/
def trim (value : String) : List Char :=
  (value.toList.dropWhile isTrimmed).rdropWhile isTrimmed

/-- `/^(\d{1,14})(?:\.(\d{1,10}))?$/`, with its groups; a missing fraction is empty. -/
def RATE_PATTERN (text : List Char) : Option (List Char × List Char) :=
  let whole := text.takeWhile Char.isDigit
  if 1 ≤ whole.length ∧ whole.length ≤ 14 then
    match text.dropWhile Char.isDigit with
    | [] => some (whole, [])
    | point :: fraction =>
      if point = '.' ∧ fraction.all Char.isDigit ∧ 1 ≤ fraction.length ∧ fraction.length ≤ 10 then
        some (whole, fraction)
      else none
  else none

/-- `BigInt(digits)` -/
def bigInt (digits : List Char) : Int := Nat.ofDigitChars 10 digits 0

/-- `digits.padEnd(length, '0')` -/
def padEnd (digits : List Char) (length : Nat) : List Char := digits.rightpad length '0'

/-- `digits.padStart(length, '0')` -/
def padStart (digits : List Char) (length : Nat) : List Char := digits.leftpad length '0'

/-- Parses a positive decimal string into a scaled integer. -/
def parseRate (value : String) : Except Err Int :=
  match RATE_PATTERN (trim value) with
  | none => .error (invalidRateError s!"Invalid rate \"{value}\"")
  | some (whole, fraction) =>
    let scaled := bigInt whole * RATE_SCALE + bigInt (padEnd fraction RATE_DECIMALS)
    if scaled ≤ 0 then .error (invalidRateError "Rate must be greater than zero") else .ok scaled

/-- Formats a scaled rate as a decimal string without trailing zeros. -/
def formatRate (scaled : Int) : String :=
  let whole := toString (scaled.tdiv RATE_SCALE)
  let fraction :=
    (padStart (toString (scaled.tmod RATE_SCALE)).toList RATE_DECIMALS).rdropWhile (· = '0')
  if fraction = [] then whole else whole ++ "." ++ String.ofList fraction

/-! ## Conversions -/

/-- A rate between currencies of the type `κ`. -/
structure PairRate (κ : Type) where
  base : κ
  quote : κ
  /-- Quote units per base unit, scaled. -/
  scaled : Int
deriving DecidableEq, Repr

structure Conversion where
  /-- Charged to the customer, in source minor units. -/
  sourceAmount : Int
  /-- Credited to the customer after the spread, in target minor units. -/
  targetAmount : Int
  /-- Value of `sourceAmount` at the mid rate, rounded down. -/
  grossTargetAmount : Int
  /-- The platform's FX revenue. -/
  spreadAmount : Int
deriving DecidableEq, Repr

def divide (a b : Int) : Except Err Int :=
  if b = 0 then .error (rangeError "Division by zero") else .ok (a.tdiv b)

def ceilDiv (a b : Int) : Except Err Int := divide (a + b - 1) b

def validateSpread (spreadBps : Int) : Except Err Int :=
  if spreadBps < 0 ∨ spreadBps ≥ 10000 then .error (rangeError s!"Invalid spread {spreadBps} bps")
  else .ok spreadBps

section

variable {κ : Type} [DecidableEq κ] [ToString κ] (minorUnits : κ → Nat)

/-- Conversion factor as a fraction: its numerator and denominator. -/
def factor (rate : PairRate κ) (source target : κ) : Except Err (Int × Int) :=
  let es : Int := 10 ^ minorUnits source
  let et : Int := 10 ^ minorUnits target
  if source = rate.base ∧ target = rate.quote then .ok (rate.scaled * et, RATE_SCALE * es)
  else if source = rate.quote ∧ target = rate.base then .ok (RATE_SCALE * et, rate.scaled * es)
  else
    .error (invalidRateError
      s!"Rate {rate.base}/{rate.quote} cannot convert {source} to {target}")

/-- The customer pays a fixed source amount; the credit is rounded down. -/
def convertFromSource (rate : PairRate κ) (source target : κ) (sourceAmount spreadBps : Int) :
    Except Err Conversion := do
  let spread ← validateSpread spreadBps
  if sourceAmount ≤ 0 then throw (rangeError "Amount must be positive")
  else
    let (n, d) ← factor minorUnits rate source target
    let grossTargetAmount ← divide (sourceAmount * n) d
    let targetAmount ← divide (sourceAmount * n * (BPS - spread)) (d * BPS)
    pure ⟨sourceAmount, targetAmount, grossTargetAmount, grossTargetAmount - targetAmount⟩

/-- The customer wants a fixed target amount; the charge is rounded up. -/
def convertToTarget (rate : PairRate κ) (source target : κ) (targetAmount spreadBps : Int) :
    Except Err Conversion := do
  let spread ← validateSpread spreadBps
  if targetAmount ≤ 0 then throw (rangeError "Amount must be positive")
  else
    let (n, d) ← factor minorUnits rate source target
    let sourceAmount ← ceilDiv (targetAmount * d * BPS) (n * (BPS - spread))
    convertFromSource minorUnits rate source target sourceAmount spreadBps

end

end Finstack.FxMath
