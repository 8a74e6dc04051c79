import Mathlib.Init

/-! # Errors

What the services throw: exceptions the API returns on purpose, with their stable code, detail and
HTTP status; programming errors; and what PostgreSQL raises.
-/

namespace Finstack

/-- An error the API deliberately returns to clients. -/
structure AppException where
  code : String
  detail : String
  status : Nat
deriving DecidableEq, Repr

/-- What PostgreSQL raises. -/
inductive DatabaseError where
  | uniqueViolation (constraint : String)
  | foreignKeyViolation (constraint : String)
  | checkViolation (constraint : String)
  | numericOutOfRange
  | stringTooLong
  /-- `RAISE EXCEPTION` in a trigger function. -/
  | raised (function : String)
deriving DecidableEq, Repr

/-- Anything a service can throw. -/
inductive Err where
  | app (exception : AppException)
  /-- An `Error` subclass of our own: its name and message. -/
  | internal (name message : String)
  | database (error : DatabaseError)
  /-- TypeORM's `findOneByOrFail` found nothing. -/
  | entityNotFound (entity : String)
deriving DecidableEq, Repr

/-- True for a violation of one of these unique constraints. -/
def isUniqueViolation (error : Err) (constraints : List String) : Bool :=
  match error with
  | .database (.uniqueViolation constraint) => constraints.contains constraint
  | _ => false

namespace HttpStatus

def serviceUnavailable : Nat := 503
def unprocessableEntity : Nat := 422
def conflict : Nat := 409
def notFound : Nat := 404
def forbidden : Nat := 403
def unauthorized : Nat := 401
def badRequest : Nat := 400

end HttpStatus

end Finstack
