import Finstack.Foundation.Schedule
import Finstack.Foundation.UniqueIndex
import Finstack.Model.Errors

/-! # Refresh tokens

`RefreshTokenService`, statement by statement, for any number of calls at once. A token's row is
keyed by the token: tokens are random, and so are their hashes and the ids of their rows. An
`UPDATE` or a `DELETE` of many rows looks up which, and then locks and checks them again one by
one, in any order.
-/

namespace Finstack.RefreshTokens

open Foundation

structure RefreshToken (κ φ υ : Type) where
  userId : υ
  familyId : φ
  expiresAt : Nat
  revokedAt : Option Nat
  replacedById : Option κ
deriving DecidableEq, Repr

def invalidRefreshTokenException : AppException :=
  ⟨"INVALID_REFRESH_TOKEN", "Refresh token is invalid or expired. Sign in again.",
    HttpStatus.unauthorized⟩

/-- A call of the service with its arguments. -/
inductive Request (κ φ υ : Type) where
  | issue (userId : υ)
  | rotate (token : κ)
  | revoke (token : κ)
  | revokeFamily (familyId : φ)
  | revokeAllForUser (userId : υ)
  /-- With the time that is so many days before the database's `now()`. -/
  | deleteFinished (before : Nat)
deriving DecidableEq, Repr

/-- What an `UPDATE` revokes. -/
inductive Scope (φ υ : Type) where
  | family (familyId : φ)
  | user (userId : υ)
deriving DecidableEq, Repr

/-- What a call returns. -/
inductive Result (κ φ υ : Type) where
  | issued (token : κ) (expiresAt : Nat)
  | rotated (token : κ) (expiresAt : Nat) (userId : υ) (familyId : φ)
  | invalid
  | reused (userId : υ) (familyId : φ)
  | done
  | deleted (affected : Nat)
deriving DecidableEq, Repr

/-- The exception that `rotate` turns its outcome into. -/
def Result.exception {κ φ υ : Type} : Result κ φ υ → Option AppException
  | .invalid | .reused _ _ => some invalidRefreshTokenException
  | _ => none

/-- The statement a call is at, with what it has read. -/
inductive Pc (κ φ υ : Type) where
  /-- `create` of `issue`. -/
  | insert
  | lockCurrent
  /-- `create` of `rotate`. -/
  | insertNext (current : RefreshToken κ φ υ)
  | replaceCurrent (current : RefreshToken κ φ υ) (next : κ) (expiresAt : Nat)
  /-- `findOneBy` of `revoke`. -/
  | findRevoked
  | update (scope : Scope φ υ) (result : Result κ φ υ)
  | updating (scope : Scope φ υ) (revokedAt : Nat) (remaining : List κ) (result : Result κ φ υ)
  | delete (before : Nat)
  | deleting (before : Nat) (remaining : List κ) (affected : Nat)
  | commit (result : Result κ φ υ)
  | returned (result : Result κ φ υ)
  | crashed
deriving DecidableEq, Repr

structure Call (κ φ υ : Type) where
  request : Request κ φ υ
  pc : Pc κ φ υ
deriving DecidableEq, Repr

/-- A rotation that has committed. -/
structure Rotation (κ φ υ ι : Type) where
  caller : ι
  token : κ
  next : κ
  userId : υ
  familyId : φ
deriving DecidableEq, Repr

/-- The time, the tokens, the tokens and the families there ever were, every rotation, and every
call. -/
structure Sessions (κ φ υ ι : Type) where
  now : Nat
  tokens : RowStore κ (RefreshToken κ φ υ) ι
  ids : List κ
  families : List φ
  rotations : List (Rotation κ φ υ ι)
  calls : ι → Option (Call κ φ υ)

variable {κ φ υ ι : Type} [DecidableEq κ] [DecidableEq φ] [DecidableEq υ] [DecidableEq ι]

def Scope.covers (token : RefreshToken κ φ υ) : Scope φ υ → Bool
  | .family familyId => token.familyId = familyId
  | .user userId => token.userId = userId

/-- The condition of an `UPDATE` that revokes. -/
def Scope.revokes (token : RefreshToken κ φ υ) (scope : Scope φ υ) : Bool :=
  scope.covers token && token.revokedAt.isNone

/-- The condition of the `DELETE`. -/
def finished (before : Nat) (token : RefreshToken κ φ υ) : Bool :=
  token.expiresAt < before || token.revokedAt.any fun revokedAt => revokedAt < before

/-- What `rotate` does with the row that it has locked. -/
def checked (now : Nat) (current : RefreshToken κ φ υ) : Pc κ φ υ :=
  if current.revokedAt.isSome && current.replacedById.isNone then
    -- ended by logout or an admin
    .commit .invalid
  else if current.revokedAt.isSome then
    .update (.family current.familyId) (.reused current.userId current.familyId)
  else if current.expiresAt ≤ now then
    .commit .invalid
  else
    .insertNext current

/-- The first statement of a call. -/
def Request.begin : Request κ φ υ → Pc κ φ υ
  | .issue _ => .insert
  | .rotate _ => .lockCurrent
  | .revoke _ => .findRevoked
  | .revokeFamily familyId => .update (.family familyId) .done
  | .revokeAllForUser userId => .update (.user userId) .done
  | .deleteFinished before => .delete before

namespace Sessions

/-- No token yet. -/
def start (now : Nat) : Sessions κ φ υ ι := ⟨now, .start fun _ => none, [], [], [], fun _ => none⟩

def goto (s : Sessions κ φ υ ι) (i : ι) (call : Call κ φ υ) (pc : Pc κ φ υ) : Sessions κ φ υ ι :=
  { s with calls := Function.update s.calls i (some { call with pc }) }

def write (s : Sessions κ φ υ ι) (i : ι) (token : κ) (row : Option (RefreshToken κ φ υ)) :
    Sessions κ φ υ ι :=
  { s with tokens := s.tokens.write i token row }

/-- The rows a statement of `i` finds. -/
def select (s : Sessions κ φ υ ι) (i : ι) (where_ : RefreshToken κ φ υ → Bool) : List κ :=
  s.ids.filter fun token => (s.tokens.view i token).any where_

/-- The rotation that a commit completes. -/
def rotated (i : ι) : Request κ φ υ → Result κ φ υ → List (Rotation κ φ υ ι)
  | .rotate token, .rotated next _ userId familyId => [⟨i, token, next, userId, familyId⟩]
  | _, _ => []

/-- A new token, of a new family or of the family of the token that it replaces. -/
def create (s : Sessions κ φ υ ι) (ttl : Nat) (i : ι) (call : Call κ φ υ) (token : κ) (userId : υ)
    (familyId : φ) (next : Pc κ φ υ) : Sessions κ φ υ ι :=
  { (s.write i token (some ⟨userId, familyId, s.now + ttl, none, none⟩)).goto i call next with
    ids := token :: s.ids }

/-- An insert, with the token that `randomBytes` gives, and the family that `randomUUID` gives. -/
def insertNext (ttl : Nat) (s : Sessions κ φ υ ι) (i : ι) (token : κ) (familyId : φ)
    (call : Call κ φ υ) : Option (Sessions κ φ υ ι) :=
  match call.request, call.pc with
  | .issue userId, .insert =>
    if token ∈ s.ids ∨ familyId ∈ s.families then
      none
    else
      some { s.create ttl i call token userId familyId (.commit (.issued token (s.now + ttl))) with
        families := familyId :: s.families }
  | _, .insertNext current =>
    if token ∈ s.ids then
      none
    else
      some (s.create ttl i call token current.userId current.familyId
        (.replaceCurrent current token (s.now + ttl)))
  | _, _ => none

/-- The next row of a statement that locks many. -/
def lockNext (s : Sessions κ φ υ ι) (i : ι) (token : κ) (call : Call κ φ υ) :
    Option (Sessions κ φ υ ι) :=
  match call.pc with
  | .updating scope revokedAt remaining result =>
    if token ∈ remaining ∧ s.tokens.Free i token then
      match s.tokens.view i token with
      | none => some (s.goto i call (.updating scope revokedAt (remaining.erase token) result))
      | some row =>
        if scope.revokes row then
          some ((s.write i token (some { row with revokedAt := some revokedAt })).goto i call
            (.updating scope revokedAt (remaining.erase token) result))
        else
          some (s.goto i call (.updating scope revokedAt (remaining.erase token) result))
    else
      none
  | .deleting before remaining affected =>
    if token ∈ remaining ∧ s.tokens.Free i token then
      match s.tokens.view i token with
      | none => some (s.goto i call (.deleting before (remaining.erase token) affected))
      | some row =>
        if finished before row then
          some ((s.write i token none).goto i call
            (.deleting before (remaining.erase token) (affected + 1)))
        else
          some (s.goto i call (.deleting before (remaining.erase token) affected))
    else
      none
  | _ => none

/-- The next statement of the call `i`, unless it waits for a lock. -/
def advance (s : Sessions κ φ υ ι) (i : ι) (call : Call κ φ υ) : Option (Sessions κ φ υ ι) :=
  match call.request, call.pc with
  | .rotate token, .lockCurrent =>
    match s.tokens.rows token with
    | none => some (s.goto i call (.commit .invalid))
    | some current =>
      if s.tokens.Free i token then
        some { s.goto i call (checked s.now current) with tokens := s.tokens.lock i token }
      else
        none
  | .rotate token, .replaceCurrent current next expiresAt =>
    if s.tokens.Free i token then
      match s.tokens.view i token with
      | none =>
        some (s.goto i call (.commit (.rotated next expiresAt current.userId current.familyId)))
      | some row =>
        some ((s.write i token
          (some { row with revokedAt := some s.now, replacedById := some next })).goto i call
          (.commit (.rotated next expiresAt current.userId current.familyId)))
    else
      none
  | .revoke token, .findRevoked =>
    match s.tokens.rows token with
    | none => some (s.goto i call (.returned .done))
    | some found => some (s.goto i call (.update (.family found.familyId) .done))
  | _, .update scope result =>
    some (s.goto i call (.updating scope s.now (s.select i scope.revokes) result))
  | _, .updating _ _ remaining result =>
    if remaining = [] then some (s.goto i call (.commit result)) else none
  | _, .delete before => some (s.goto i call (.deleting before (s.select i (finished before)) 0))
  | _, .deleting _ remaining affected =>
    if remaining = [] then some (s.goto i call (.commit (.deleted affected))) else none
  | request, .commit result =>
    some { s.goto i call (.returned result) with
      tokens := s.tokens.commit i
      rotations := rotated i request result ++ s.rotations }
  | _, _ => none

/-- What the environment decides. -/
inductive Action (κ φ υ ι : Type) where
  | tick (now : Nat)
  | call (i : ι) (request : Request κ φ υ)
  | insert (i : ι) (token : κ) (familyId : φ)
  | lock (i : ι) (token : κ)
  | advance (i : ι)
  | crash (i : ι)
deriving DecidableEq, Repr

def step (ttl : Nat) : Action κ φ υ ι → Sessions κ φ υ ι → Option (Sessions κ φ υ ι)
  | .tick now, s => if s.now ≤ now then some { s with now } else none
  | .call i request, s =>
    if s.calls i = none then some (s.goto i ⟨request, request.begin⟩ request.begin) else none
  | .insert i token familyId, s => (s.calls i).bind (s.insertNext ttl i token familyId)
  | .lock i token, s => (s.calls i).bind (s.lockNext i token)
  | .advance i, s => (s.calls i).bind (s.advance i)
  | .crash i, s =>
    (s.calls i).map fun call => { s.goto i call .crashed with tokens := s.tokens.rollback i }

/-- Everything that can happen in steps that `Admits` lets happen. -/
def Reaches (ttl : Nat) (Admits : Action κ φ υ ι → Sessions κ φ υ ι → Prop) :
    Sessions κ φ υ ι → Sessions κ φ υ ι → Prop :=
  Schedule.Reaches (step ttl) Admits

end Sessions

end Finstack.RefreshTokens
