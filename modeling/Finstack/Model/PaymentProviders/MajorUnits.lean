import Finstack.Model.Currency
import Finstack.Model.Fx.Math
import Finstack.Model.Numbers
import Finstack.Model.PaymentProviders.Http

/-! # Amounts in major units

Between amounts in minor units and the decimal texts and numbers that providers use.
-/

namespace Finstack.PaymentProviders

open Foundation FxMath

def exponentOf (currency : String) : Except Thrown Nat :=
  match CURRENCIES.lookup currency with
  | none => .error (.rangeError ("Unsupported currency \"" ++ currency ++ "\""))
  | some exponent => .ok exponent

def padStart (length : Nat) (text : String) : String :=
  String.ofList (List.replicate (length - text.length) '0' ++ text.toList)

def toMajorUnitString (minor : Int) (currency : String) : Except Thrown String := do
  if minor < 0 then throw (.rangeError "Amounts must not be negative")
  let exponent ← exponentOf currency
  if exponent = 0 then return toString minor
  let scale : Int := 10 ^ exponent
  return toString (minor / scale) ++ "." ++ padStart exponent (toString (minor % scale))

def MAX_SAFE_INTEGER : Int := 2 ^ 53 - 1

def toMajorUnitNumber (minor : Int) (currency : String) : Except Thrown ℚ := do
  if minor > MAX_SAFE_INTEGER then throw (.rangeError "Amount too large to send in major units")
  return numberOf (← toMajorUnitString minor currency)

/-- `/^(\d+)(?:\.(\d+))?$/`, with its groups; a missing fraction is empty. -/
def AMOUNT_PATTERN (text : List Char) : Option (List Char × List Char) := readDecimal text

/-- `digits || '0'` -/
def orZero (digits : List Char) : List Char := if digits = [] then ['0'] else digits

/-- An exception that shows the value; some objects cannot be shown. -/
def amountError (value : Value) (message : String → String) : Thrown :=
  match value.toText with
  | none => .typeError
  | some shown => .rangeError (message shown)

/-- A provider's amount in minor units, exactly. What the text of a number that is not finite has in
place of digits does not match either. -/
def fromMajorUnits (value : Value) (currency : String) : Except Thrown Int := do
  let exponent ← exponentOf currency
  let text := match value with
    | some (.number text) => text.toList
    | some (.string text) => trim text
    | _ => []
  match AMOUNT_PATTERN text with
  | none =>
    throw (amountError value fun shown => "Not a valid " ++ currency ++ " amount: " ++ shown)
  | some (whole, digits) =>
    let fraction := digits.rdropWhile (· = '0')
    if fraction.length > exponent then
      throw (amountError value fun shown => shown ++ " has more decimals than " ++ currency ++ " allows")
    return bigInt whole * 10 ^ exponent + bigInt (orZero (FxMath.padEnd fraction exponent))

end Finstack.PaymentProviders
