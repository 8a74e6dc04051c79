import Finstack.Foundation.Decimals

/-! # The signature header

`signatureHeader` and `verifySignatureHeader`, over an HMAC that is known only by the form of its
digests. Texts are lists of characters.
-/

namespace Finstack.OutboundWebhooks

open Foundation

abbrev Text := List Char

/-- `/^[0-9a-f]$/` -/
def isHexDigit (c : Char) : Bool := c.isDigit || (decide ('a' ≤ c) && decide (c ≤ 'f'))

/-- `/^[0-9a-f]{64}$/` -/
def isHexDigest (text : Text) : Bool := text.length = 64 && text.all isHexDigit

/-- `createHmac('sha256', key).update(message).digest('hex')` -/
structure Hmac where
  digest (key message : Text) : Text
  hex : ∀ key message, isHexDigest (digest key message) = true

/-- What `Number` and `String` make of texts and of numbers other than the safe natural ones. -/
structure Numerals where
  /-- None when the number is not an integer. -/
  number : Text → Option Int
  text : Int → Text

namespace Numerals

variable (numerals : Numerals)

/-- `Number(text)`, when it is an integer. -/
def toNumber (text : Text) : Option Int :=
  if text ≠ [] ∧ Digits text ∧ Foundation.number text < 2 ^ 53 then some (Foundation.number text)
  else numerals.number text

/-- `String(number)` -/
def toText (number : Int) : Text :=
  if 0 ≤ number ∧ number < 2 ^ 53 then Nat.toDigits 10 number.toNat else numerals.text number

end Numerals

/-- The value of a hexadecimal digit. -/
def hexValue (c : Char) : Nat := if c.isDigit then c.toNat - 48 else c.toNat - 87

/-- `Buffer.from(text, 'hex')` -/
def hexBytes : Text → List Nat
  | high :: low :: rest => (16 * hexValue high + hexValue low) :: hexBytes rest
  | _ => []

variable (hmac : Hmac) (numerals : Numerals)

def sign (secret : Text) (timestamp : Int) (body : Text) : Text :=
  hmac.digest secret (numerals.toText timestamp ++ '.' :: body)

/-- `t=<unix seconds>,v1=<hex>[,v1=<hex>]` -/
def signatureHeader (secrets : List Text) (body : Text) (timestamp : Nat) : Text :=
  let signatures := secrets.map fun secret => "v1=".toList ++ sign hmac numerals secret timestamp body
  [','].intercalate (("t=".toList ++ numerals.toText timestamp) :: signatures)

/-- `split('=', 2)` of every part between commas. -/
def headerParts (header : Text) : List (List Text) :=
  (header.splitOn ',').map fun part => (part.splitOn '=').take 2

/-- How a receiver checks the header, its clock in milliseconds. The digests that are compared are
of one length. -/
def verifySignatureHeader (header secret body : Text) (toleranceSeconds now : Nat) : Bool :=
  let parts := headerParts header
  match (parts.find? fun part => part[0]? = some "t".toList).bind (·[1]?) with
  | none => false
  | some text =>
    match numerals.toNumber text with
    | none => false
    | some timestamp =>
      if toleranceSeconds * 1000 < ((now : Int) - timestamp * 1000).natAbs then false
      else
        let expected := hexBytes (sign hmac numerals secret timestamp body)
        (parts.filter fun part =>
          part[0]? = some "v1".toList && isHexDigest (part[1]?.getD [])).any fun part =>
            hexBytes (part[1]?.getD []) = expected

end Finstack.OutboundWebhooks
