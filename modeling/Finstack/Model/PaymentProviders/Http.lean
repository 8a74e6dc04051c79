import Finstack.Foundation.Exchange
import Finstack.Model.PaymentProviders.Json

/-! # The HTTP client of the adapters

`JsonHttpClient.request` against a provider that answers anything, or nothing. The client sends one
request and classifies what comes back; `JSON.parse` is a parameter.
-/

namespace Finstack.PaymentProviders

open Foundation

/-- `retryable` distinguishes outages from rejections. -/
structure PaymentProviderError where
  message : String
  retryable : Bool
  /-- The provider's HTTP status, when it answered. -/
  httpStatus : Option Nat
deriving DecidableEq, Repr

/-- What an adapter can throw. -/
inductive Thrown where
  | provider (error : PaymentProviderError)
  | typeError
  | rangeError (message : String)
deriving DecidableEq, Repr

inductive Method where
  | GET
  | POST
deriving DecidableEq, Repr

structure JsonRequest where
  method : Method
  url : String
  headers : List (String × String)
  /-- Sent as JSON. -/
  body : Option Json
  /-- Sent as application/x-www-form-urlencoded. -/
  form : Option (List (String × Value))
  timeoutMs : Nat

structure JsonResponse where
  status : Nat
  body : Json

/-- What becomes of a request. -/
inductive Answer where
  /-- `fetch` throws: the network, or the timeout. -/
  | failed (timedOut : Bool) (message : String)
  /-- The headers arrive and the body does not. -/
  | cut (status : Nat)
  | answered (status : Nat) (text : String)
deriving DecidableEq, Repr

abbrev Http (α : Type) := Exchange JsonRequest Answer Thrown α

def describe (timedOut : Bool) (message : String) : String :=
  if timedOut then "timed out" else message

def utf16Size (c : Char) : Nat := if c.toNat < 0x10000 then 1 else 2

/-- `slice(0, units)`, in UTF-16 code units. -/
def slice : Nat → List Char → List Char
  | _, [] => []
  | units, c :: text => 
    if utf16Size c ≤ units then c :: slice (units - utf16Size c) text else []

/-- `String(value).slice(0, 300)` -/
def shortText (value : Value) : Except Thrown String :=
  match value.toText with
  | none => .error .typeError
  | some text => .ok (String.ofList (slice 300 text.toList))

def hasField (name : String) : Json → Bool
  | .object fields => fields.any fun field => field.1 == name
  | _ => false

/-- `{ message }` (Paystack) or `{ error: { message } }` (Stripe). -/
def providerMessage (body : Json) : Except Thrown String :=
  if hasField "message" body then shortText (body.field "message")
  else
    match body.field "error" with
    | some error =>
      if hasField "message" error then shortText (error.field "message") else .ok "no message"
    | none => .ok "no message"

def isOk (status : Nat) : Bool := 200 ≤ status && status ≤ 299

/-- The texts of a form's values. -/
def formTexts : List (String × Value) → Option (List (String × String))
  | [] => some []
  | (name, value) :: form => do
    let text ← value.toText
    let texts ← formTexts form
    return (name, text) :: texts

section

variable (parse : String → Option Json)

/-- An empty body counts as `{}`. -/
def parseBody (text : String) : Option Json := if text = "" then some (.object []) else parse text

/-- The client's reading of what became of a request. -/
def classify : Answer → Except Thrown JsonResponse
  | .failed timedOut message =>
    -- The provider may or may not have acted.
    .error (.provider ⟨"Request failed: " ++ describe timedOut message, true, none⟩)
  | .cut _ => .error .typeError
  | .answered status text =>
    match parseBody parse text with
    | none =>
      .error (.provider
        ⟨"Non-JSON response (HTTP " ++ toString status ++ ")", decide (status ≥ 500), none⟩)
    | some body =>
      if isOk status then .ok ⟨status, body⟩
      else do
        let retryable := decide (status ≥ 500) || decide (status = 429)
        let message ← providerMessage body
        .error (.provider
          ⟨"HTTP " ++ toString status ++ ": " ++ message, retryable, some status⟩)

/-- A form that has no text never leaves: the client's `try` covers its encoding. -/
def request (r : JsonRequest) : Http JsonResponse :=
  if (r.form.bind formTexts).isNone && r.form.isSome then
    .done (.error (.provider
      ⟨"Request failed: Cannot convert object to primitive value", true, none⟩))
  else .send r fun answer => .done (classify parse answer)

end

/-! ## Expressions of the adapters -/

/-- `value.name` -/
def prop (name : String) : Value → Except Thrown Value
  | none | some .null => .error .typeError
  | some value => .ok (value.field name)

/-- A value in a template or under `String(..)`. -/
def textOf (value : Value) : Except Thrown String :=
  match value.toText with
  | none => .error .typeError
  | some text => .ok text

/-- The receiver of `toLowerCase` or `toUpperCase`. -/
def stringOf : Value → Except Thrown String
  | some (.string text) => .ok text
  | _ => .error .typeError

def lift {α : Type} (result : Except Thrown α) : Http α := .done result

end Finstack.PaymentProviders
