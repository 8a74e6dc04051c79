import Finstack.Foundation.Base64
import Finstack.Model.Errors
import Finstack.Model.Ledger.Types
import Finstack.Model.Pagination.Dates

/-! # Cursors

A position in a list, as the opaque text that clients send back.
-/

namespace Finstack

open Foundation

/-- Position in a list ordered by (created_at DESC, id DESC). -/
structure Cursor where
  createdAt : Date
  id : Uuid
deriving DecidableEq

def invalidCursorException : AppException :=
  ⟨"INVALID_CURSOR", "The pagination cursor is invalid", HttpStatus.badRequest⟩

/-- What the JavaScript engine makes of input that no encoder writes. -/
structure Engine where
  /-- `new Date(text)` of any other text than `toISOString` writes. -/
  otherDate : String → Option Date
  /-- `Buffer.from(text, 'base64url')` of a text with other characters. -/
  otherBase64 : String → List Nat
  /-- `toString('utf8')` of other bytes. -/
  otherUtf8 : ByteArray → String

namespace Engine

variable (engine : Engine)

/-- `new Date(text)`; none if it is invalid. -/
def newDate (text : String) : Option Date :=
  match Date.ofISOString text with
  | some date => some date
  | none => engine.otherDate text

def fromBase64url (text : String) : List Nat :=
  if text.toList.all Base64.alphabet.contains then Base64.decode text.toList
  else engine.otherBase64 text

def toUtf8String (bytes : List Nat) : String :=
  let buffer : ByteArray := ⟨(bytes.map UInt8.ofNat).toArray⟩
  match String.fromUTF8? buffer with
  | some text => text
  | none => engine.otherUtf8 buffer

end Engine

/-- `Buffer.from(text)` -/
def utf8Bytes (text : String) : List Nat := text.toUTF8.data.toList.map UInt8.toNat

/-- base64url("<ISO timestamp>|<entry id>") -/
def encodeCursor (cursor : Cursor) : String :=
  String.ofList (Base64.encode
    (utf8Bytes (cursor.createdAt.toISOString ++ "|" ++ uuidText cursor.id)))

def hexAlphabet : List Char := "0123456789abcdef".toList

/-- `/^[0-9a-f]{8}-[0-9a-f]{4}-[0-9a-f]{4}-[0-9a-f]{4}-[0-9a-f]{12}$/i` -/
def UUID (text : List Char) : Bool :=
  let groups := text.splitOn '-'
  groups.map List.length == [8, 4, 4, 4, 12] &&
    groups.all fun group => group.all fun c => hexAlphabet.contains c.toLower

/-- The number that hexadecimal digits write. -/
def hexNumber (digits : List Char) : Nat :=
  digits.foldl (fun value c => value * 16 + hexAlphabet.idxOf c.toLower) 0

/-- The UUID of a text, if it is one. -/
def uuidOf (text : List Char) : Option Uuid :=
  if UUID text then some (Fin.ofNat _ (hexNumber (text.splitOn '-').flatten)) else none

def decodeCursor (engine : Engine) (value : String) : Except Err Cursor :=
  match (engine.toUtf8String (engine.fromBase64url value)).toList.splitOn '|' with
  | [timestamp, id] =>
    match engine.newDate (String.ofList timestamp), uuidOf id with
    | some createdAt, some id => .ok ⟨createdAt, id⟩
    | _, _ => .error (.app invalidCursorException)
  | _ => .error (.app invalidCursorException)

end Finstack
