import Mathlib.Data.List.Lex
import Mathlib.Order.Fin.Basic
import Finstack.Model.Ledger.Types
import Finstack.Model.Numbers

/-! # Request fingerprints

What a request's hash is taken of. Strings are JavaScript's, sequences of 16-bit units in which
surrogates need not come in pairs.
-/

namespace Finstack.Idempotency

open Foundation

abbrev CodeUnit := Fin (2 ^ 16)

instance CodeUnit.neZero : NeZero (2 ^ 16) := ⟨by decide⟩

abbrev JsString := List CodeUnit

def unit (c : Char) : CodeUnit := Fin.ofNat _ c.toNat

/-- A text in ASCII. -/
def ascii (text : String) : JsString := text.toList.map unit

/-- What `JSON.parse` returns, and undefined. An object's fields are in the order of its entries. -/
inductive Value where
  | undefined
  | null
  | bool (value : Bool)
  | number (value : Double)
  | string (value : JsString)
  | array (items : List Value)
  | object (fields : List (JsString × Value))

/-! ## `JSON.stringify` of strings -/

def isHighSurrogate (u : CodeUnit) : Bool := 0xD800 ≤ u.val && u.val < 0xDC00

def isLowSurrogate (u : CodeUnit) : Bool := 0xDC00 ≤ u.val && u.val < 0xE000

/-- The letter of a short escape. -/
def shortEscape (u : CodeUnit) : Option Char :=
  match u.val with
  | 8 => some 'b'
  | 9 => some 't'
  | 10 => some 'n'
  | 12 => some 'f'
  | 13 => some 'r'
  | 34 => some '"'
  | 92 => some '\\'
  | _ => none

/-- A unit that is not part of a pair of surrogates. -/
def quoteUnit (u : CodeUnit) : JsString :=
  match shortEscape u with
  | some letter => [unit '\\', unit letter]
  | none =>
    if u.val < 0x20 || isHighSurrogate u || isLowSurrogate u then
      unit '\\' :: unit 'u' :: (hexDigits 4 u).map unit
    else [u]

def quoteUnits : JsString → JsString
  | u :: v :: rest =>
    if isHighSurrogate u && isLowSurrogate v then u :: v :: quoteUnits rest
    else quoteUnit u ++ quoteUnits (v :: rest)
  | [u] => quoteUnit u
  | [] => []

def quote (text : JsString) : JsString := unit '"' :: quoteUnits text ++ [unit '"']

/-! ## Canonical JSON -/

/-- Fields in the order of their keys. -/
def sortFields {T : Type} (fields : List (JsString × T)) : List (JsString × T) :=
  fields.mergeSort fun a b => a.1 ≤ b.1

mutual

/-- JSON with object keys sorted recursively, so key order never matters. -/
def canonicalJson : Value → JsString
  | .array items => unit '[' :: [unit ','].intercalate (canonicalItems items) ++ [unit ']']
  | .object fields =>
    let entries := (sortFields (canonicalFields fields)).map fun (k, text) => quote k ++ unit ':' :: text
    unit '{' :: [unit ','].intercalate entries ++ [unit '}']
  | .null => ascii "null"
  | .bool value => ascii (if value then "true" else "false")
  | .number value => ascii value.text
  | .string value => quote value
  -- `JSON.stringify(value) ?? 'null'`
  | .undefined => ascii "null"

def canonicalItems : List Value → List JsString
  | [] => []
  | item :: items => canonicalJson item :: canonicalItems items

/-- The fields that are not undefined, with the texts of their values. -/
def canonicalFields : List (JsString × Value) → List (JsString × JsString)
  | [] => []
  | (_, .undefined) :: fields => canonicalFields fields
  | (k, value) :: fields => (k, canonicalJson value) :: canonicalFields fields

end

/-- `body ?? null` -/
def orNull : Value → Value
  | .undefined => .null
  | body => body

variable (toUpperCase : JsString → JsString)

/-- What is hashed. -/
def requestText (method path : JsString) (body : Value) : JsString :=
  toUpperCase method ++ unit '\n' :: path ++ unit '\n' :: canonicalJson (orNull body)

def requestHash (sha256 : JsString → String) (method path : JsString) (body : Value) : String :=
  sha256 (requestText toUpperCase method path body)

/-! ## JSON values -/

mutual

/-- Nothing in it is undefined, and no object has a key twice. -/
def Value.isJson : Value → Bool
  | .undefined => false
  | .array items => areJson items
  | .object fields => decide (fields.map Prod.fst).Nodup && haveJson fields
  | _ => true

def areJson : List Value → Bool
  | [] => true
  | item :: items => item.isJson && areJson items

def haveJson : List (JsString × Value) → Bool
  | [] => true
  | (_, value) :: fields => value.isJson && haveJson fields

end

/-- A JSON value. -/
structure Json where
  value : Value
  isJson : value.isJson = true

/-- The same value but for the order of fields. -/
inductive SameUpToKeyOrder : Value → Value → Prop where
  | null : SameUpToKeyOrder .null .null
  | bool (value : Bool) : SameUpToKeyOrder (.bool value) (.bool value)
  | number (value : Double) : SameUpToKeyOrder (.number value) (.number value)
  | string (value : JsString) : SameUpToKeyOrder (.string value) (.string value)
  | array {items items' : List Value} (same : List.Forall₂ SameUpToKeyOrder items items') :
    SameUpToKeyOrder (.array items) (.array items')
  | object {fields fields' ordered ordered' : List (JsString × Value)} (order : fields.Perm ordered)
    (order' : fields'.Perm ordered') (keys : ordered.map Prod.fst = ordered'.map Prod.fst)
    (same : List.Forall₂ SameUpToKeyOrder (ordered.map Prod.snd) (ordered'.map Prod.snd)) :
    SameUpToKeyOrder (.object fields) (.object fields')

/-- The body of a request, if it has one. -/
def bodyOf : Option Json → Value
  | some json => json.value
  | none => .undefined

end Finstack.Idempotency
