import Mathlib.Init

/-! # JSON values as JavaScript reads them

What an adapter does to the body of an answer: it reads properties that may not be there, tests
truthiness and puts values into texts. Reading a property of null or of nothing throws, and so does
an object's text where the object has a `toString` of its own, which a parsed one cannot call.
-/

namespace Finstack.PaymentProviders

/-- What `JSON.parse` returns. A number is given by its text. -/
inductive Json where
  | null
  | bool (value : Bool)
  | number (text : String)
  | string (text : String)
  | array (items : List Json)
  | object (fields : List (String × Json))

/-- A property that may be missing. -/
abbrev Value := Option Json

mutual

/-- `String(value)`; none where it throws. -/
def Json.toText : Json → Option String
  | .null => some "null"
  | .bool value => some (if value then "true" else "false")
  | .number text => some text
  | .string text => some text
  | .array items => (Json.itemTexts items).map (String.intercalate ",")
  | .object fields =>
    if fields.any fun field => field.1 == "toString" then none else some "[object Object]"

/-- The texts of an array's items: that of null is empty. -/
def Json.itemTexts : List Json → Option (List String)
  | [] => some []
  | .null :: items => (Json.itemTexts items).map ("" :: ·)
  | item :: items => do
    let text ← item.toText
    let texts ← Json.itemTexts items
    return text :: texts

end

namespace Value

def toText : Value → Option String
  | none => some "undefined"
  | some value => value.toText

def truthy : Value → Bool
  | none | some .null => false
  | some (.bool value) => value
  | some (.number text) => text != "0"
  | some (.string text) => text != ""
  | some (.array _) | some (.object _) => true

/-- `a || b` -/
def or (a b : Value) : Value := if a.truthy then a else b

/-- `a ?? b` -/
def orElse (a b : Value) : Value :=
  match a with
  | none | some .null => b
  | some value => some value

def isString (value : Value) (text : String) : Bool :=
  match value with
  | some (.string t) => t == text
  | _ => false

end Value

/-- The property of a value that is an object; other values have none of the names that are asked. -/
def Json.field (name : String) : Json → Value
  | .object fields => fields.lookup name
  | _ => none

/-- `value?.name` -/
def Value.field? (name : String) : Value → Value
  | none => none
  | some value => value.field name

/-- `value?.[0]` -/
def Value.first? : Value → Value
  | some (.array items) => items.head?
  | some (.string text) => text.toList.head?.map fun c => .string (String.singleton c)
  | some (.object fields) => fields.lookup "0"
  | _ => none

end Finstack.PaymentProviders
