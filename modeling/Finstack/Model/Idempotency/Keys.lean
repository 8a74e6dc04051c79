import Mathlib.Logic.Function.Basic
import Finstack.Foundation.Schedule
import Finstack.Model.Errors

/-! # Idempotency keys

`IdempotencyService` and the interceptor, for one key of one owner and any number of requests that
use it. Every statement is a transaction of its own and works on one row. The database has a clock,
and the clock of the application may show anything.
-/

namespace Finstack.Idempotency

open Foundation

inductive IdempotencyKeyStatus where
  | processing
  | completed
deriving DecidableEq, Repr

/-- What a request is compared by. -/
structure RequestFingerprint where
  method : String
  path : String
  requestHash : String
deriving DecidableEq, Repr

/-- The row of the key, with bodies in `β`. -/
structure IdempotencyKey (κ β : Type) where
  id : κ
  method : String
  path : String
  requestHash : String
  status : IdempotencyKeyStatus
  responseStatus : Option Nat
  responseBody : Option β
  lockedAt : Nat
  expiresAt : Nat
  completedAt : Option Nat
deriving DecidableEq, Repr

def idempotencyKeyReusedException : AppException :=
  ⟨"IDEMPOTENCY_KEY_REUSED", "This Idempotency-Key was already used with a different request",
    HttpStatus.unprocessableEntity⟩

def idempotencyRequestInProgressException : AppException :=
  ⟨"IDEMPOTENCY_REQUEST_IN_PROGRESS",
    "A request with this Idempotency-Key is still being processed. Retry shortly.",
    HttpStatus.conflict⟩

/-- The statement a request is at. -/
inductive Pc (κ β : Type) where
  | tryInsert (attempt : Nat)
  | findExisting (attempt : Nat)
  | deleteExisting (attempt : Nat) (id : κ)
  | takeOverStale (id : κ)
  /-- `begin` has returned `execute`, and the handler runs. -/
  | execute (id : κ)
  | complete (id : κ) (status : Nat) (body : Option β)
  | release (id : κ)
  /-- `begin` has returned `replay`. -/
  | replay (status : Nat) (body : Option β)
  | returned (body : Option β)
  | threw (exception : AppException)
  /-- The error of the handler is thrown again. -/
  | failed
  | crashed
deriving DecidableEq, Repr

structure Call (κ β : Type) where
  request : RequestFingerprint
  pc : Pc κ β
deriving DecidableEq, Repr

/-- The database's time, the row, the ids there ever were, whom each id was given to for execution,
and every request. -/
structure Key (κ β ι : Type) where
  now : Nat
  row : Option (IdempotencyKey κ β)
  ids : List κ
  claims : κ → Option ι
  calls : ι → Option (Call κ β)

/-- The configuration of the service. -/
structure Config where
  ttlMs : Nat
  lockTimeoutMs : Nat
deriving DecidableEq, Repr

variable {κ β ι : Type} [DecidableEq κ] [DecidableEq ι]

/-- `begin` tries twice. -/
def again (attempt : Nat) : Pc κ β :=
  if attempt + 1 < 2 then .tryInsert (attempt + 1)
  else .threw idempotencyRequestInProgressException

/-- What `begin` does with the row that it has found. -/
def decideExisting (clock attempt : Nat) (request : RequestFingerprint)
    (existing : IdempotencyKey κ β) : Pc κ β :=
  if existing.expiresAt ≤ clock then
    .deleteExisting attempt existing.id
  else if existing.requestHash ≠ request.requestHash ∨ existing.method ≠ request.method ∨
      existing.path ≠ request.path then
    .threw idempotencyKeyReusedException
  else if existing.status = .completed then
    .replay (existing.responseStatus.getD 200) existing.responseBody
  else
    .takeOverStale existing.id

namespace Key

/-- The key was not used yet. -/
def start (now : Nat) : Key κ β ι := ⟨now, none, [], fun _ => none, fun _ => none⟩

def goto (k : Key κ β ι) (i : ι) (call : Call κ β) (pc : Pc κ β) : Key κ β ι :=
  { k with calls := Function.update k.calls i (some { call with pc }) }

/-- The request has its answer, or has given the key back. -/
def endClaim (k : Key κ β ι) (i : ι) (id : κ) : κ → Option ι :=
  if k.claims id = some i then Function.update k.claims id none else k.claims

/-- The row, if a statement for this id finds it in progress. -/
def processing (k : Key κ β ι) (id : κ) : Option (IdempotencyKey κ β) :=
  k.row.filter fun row => row.id = id ∧ row.status = .processing

/-- `INSERT ... ON CONFLICT DO NOTHING`, with the id that the database generates. -/
def tryInsert (config : Config) (k : Key κ β ι) (i : ι) (clock attempt : Nat) (id : κ)
    (call : Call κ β) : Option (Key κ β ι) :=
  if k.row.isSome then
    some (k.goto i call (.findExisting attempt))
  else if id ∈ k.ids then
    none
  else
    some { k.goto i call (.execute id) with
      row := some ⟨id, call.request.method, call.request.path, call.request.requestHash, .processing,
        none, none, clock, clock + config.ttlMs, none⟩
      ids := id :: k.ids
      claims := Function.update k.claims id (some i) }

/-- The response is stored. -/
def complete (k : Key κ β ι) (i : ι) (clock : Nat) (id : κ) (status : Nat) (body : Option β) :
    Key κ β ι :=
  match k.processing id with
  | none => k
  | some row =>
    { k with
      row := some { row with
        status := .completed
        responseStatus := some status
        responseBody := body
        completedAt := some clock }
      claims := k.endClaim i id }

/-- The key is free again. -/
def release (k : Key κ β ι) (i : ι) (id : κ) : Key κ β ι :=
  match k.processing id with
  | none => k
  | some _ => { k with row := none, claims := k.endClaim i id }

/-- Locks the row anew, if its attempt has been silent for too long. -/
def takeOverStale (config : Config) (k : Key κ β ι) (i : ι) (id : κ) (call : Call κ β) :
    Key κ β ι :=
  match k.processing id with
  | none => k.goto i call (.threw idempotencyRequestInProgressException)
  | some row =>
    if row.lockedAt + config.lockTimeoutMs < k.now then
      { k.goto i call (.execute id) with
        row := some { row with lockedAt := k.now }
        claims := Function.update k.claims id (some i) }
    else
      k.goto i call (.threw idempotencyRequestInProgressException)

/-- Deletes the row when it has expired. -/
def deleteExpired (k : Key κ β ι) (clock : Nat) : Key κ β ι :=
  { k with row := k.row.filter fun row => ¬ row.expiresAt < clock }

/-- Deletes the row with this id when it has expired. -/
def deleteExisting (k : Key κ β ι) (clock : Nat) (id : κ) : Key κ β ι :=
  { k with row := k.row.filter fun row => ¬ (row.id = id ∧ row.expiresAt < clock) }

/-- The next statement of the request `i`, at a time that the application reads off its clock. -/
def advance (config : Config) (k : Key κ β ι) (i : ι) (clock : Nat) (call : Call κ β) :
    Option (Key κ β ι) :=
  match call.pc with
  | .findExisting attempt =>
    match k.row with
    | none => some (k.goto i call (again attempt))
    | some existing => some (k.goto i call (decideExisting clock attempt call.request existing))
  | .deleteExisting attempt id =>
    some ((k.deleteExisting clock id).goto i call (again attempt))
  | .takeOverStale id => some (k.takeOverStale config i id call)
  | .complete id status body => some ((k.complete i clock id status body).goto i call (.returned body))
  | .release id => some ((k.release i id).goto i call .failed)
  | _ => none

/-- What the environment decides. -/
inductive Action (κ β ι : Type) where
  | tick (now : Nat)
  | request (i : ι) (request : RequestFingerprint)
  | tryInsert (i : ι) (clock : Nat) (id : κ)
  | advance (i : ι) (clock : Nat)
  /-- The handler returns. -/
  | handled (i : ι) (status : Nat) (body : Option β)
  /-- The handler throws. -/
  | rejected (i : ι)
  /-- `complete` throws, with or without having stored the response. -/
  | incomplete (i : ι) (clock : Nat) (stored : Bool)
  /-- Maintenance. -/
  | deleteExpired
  | crash (i : ι)
deriving DecidableEq, Repr

def step (config : Config) : Action κ β ι → Key κ β ι → Option (Key κ β ι)
  | .tick now, k => if k.now ≤ now then some { k with now } else none
  | .request i request, k =>
    if k.calls i = none then some (k.goto i ⟨request, .tryInsert 0⟩ (.tryInsert 0)) else none
  | .tryInsert i clock id, k => (k.calls i).bind fun call =>
    match call.pc with
    | .tryInsert attempt => k.tryInsert config i clock attempt id call
    | _ => none
  | .advance i clock, k => (k.calls i).bind (k.advance config i clock)
  | .handled i status body, k => (k.calls i).bind fun call =>
    match call.pc with
    | .execute id => some (k.goto i call (.complete id status body))
    | _ => none
  | .rejected i, k => (k.calls i).bind fun call =>
    match call.pc with
    | .execute id => some (k.goto i call (.release id))
    | _ => none
  | .incomplete i clock stored, k => (k.calls i).bind fun call =>
    match call.pc with
    | .complete id status body =>
      some ((if stored then k.complete i clock id status body else k).goto i call (.release id))
    | _ => none
  | .deleteExpired, k => some (k.deleteExpired k.now)
  | .crash i, k => (k.calls i).map fun call => k.goto i call .crashed

/-- Everything that can happen in steps that `Admits` lets happen. -/
def Reaches (config : Config) (Admits : Action κ β ι → Key κ β ι → Prop) :
    Key κ β ι → Key κ β ι → Prop :=
  Schedule.Reaches (step config) Admits

end Key

end Finstack.Idempotency
