import Mathlib.Logic.Function.Basic
import Finstack.Foundation.Schedule
import Finstack.Model.Errors
import Finstack.Model.Ledger.Types

/-! # Deciding a proposal

`ProposalsService` for one proposal, any number of calls that approve or reject it, and whatever else
its organization requests. An approval holds the lock of the proposal's row in one transaction and
makes the payout in another, on its own connection; each connection may break at any time.
-/

namespace Finstack.Proposals

open Foundation

/-! ## Idempotency keys -/

/-- `[A-Za-z0-9_\-:.]`. -/
def isKeyCharacter (c : Char) : Bool :=
  c.isAlphanum || c == '_' || c == '-' || c == ':' || c == '.'

/-- `/^[A-Za-z0-9_\-:.]{1,255}$/`. -/
def isValidIdempotencyKey : Option String → Bool
  | none => false
  | some key => 1 ≤ key.toList.length && key.toList.length ≤ 255 && key.toList.all isKeyCharacter

/-- The key of the proposal's payout. -/
@[irreducible] def payoutKey (id : Uuid) : String := s!"proposal:{uuidText id}"

/-! ## The proposal -/

inductive ProposalStatus where
  | pending
  | rejected
  | executed
  | failed
  | expired
deriving DecidableEq, Repr

def ProposalStatus.text : ProposalStatus → String
  | .pending => "pending"
  | .rejected => "rejected"
  | .executed => "executed"
  | .failed => "failed"
  | .expired => "expired"

structure PayoutProposalParams where
  destinationId : Uuid
  /-- Minor units. -/
  amount : Int
  walletId : Option Uuid
deriving DecidableEq, Repr

/-- What was created for an executed proposal. -/
structure ProposalResult where
  payoutId : Uuid
  reference : String
deriving DecidableEq, Repr

structure ActionProposal where
  id : Uuid
  params : PayoutProposalParams
  status : ProposalStatus
  decidedByUserId : Option Uuid
  decidedAt : Option Nat
  decisionNote : Option String
  result : Option ProposalResult
  failureReason : Option String
  /-- A pending proposal can't be approved after this. -/
  expiresAt : Nat
deriving DecidableEq, Repr

/-- How long a proposal can wait for a decision. -/
def PROPOSAL_TTL_MS : Nat := 24 * 60 * 60 * 1000

/-- The row that `propose` saves. -/
def propose (id : Uuid) (params : PayoutProposalParams) (clock : Nat) : ActionProposal :=
  ⟨id, params, .pending, none, none, none, none, none, clock + PROPOSAL_TTL_MS⟩

def proposalAlreadyDecidedException (status : ProposalStatus) : AppException :=
  ⟨"PROPOSAL_ALREADY_DECIDED", s!"This proposal is already {status.text}", HttpStatus.conflict⟩

def proposalExpiredException : AppException :=
  ⟨"PROPOSAL_EXPIRED", "This proposal has expired; ask for a new one", HttpStatus.conflict⟩

def payoutNotFoundException : AppException :=
  ⟨"PAYOUT_NOT_FOUND", "Payout not found", HttpStatus.notFound⟩

/-! ## Payouts -/

structure Payout where
  id : Uuid
  reference : String
  destinationId : Uuid
  amount : Int
  walletId : Uuid
deriving DecidableEq, Repr

/-- The transaction that an organization has under an idempotency key. -/
inductive Transaction where
  | payment
  | payout (payout : Payout)
deriving DecidableEq, Repr

/-- The payout is the one that was proposed. -/
def PayoutProposalParams.Describes (params : PayoutProposalParams) (payout : Payout) : Prop :=
  payout.destinationId = params.destinationId ∧ payout.amount = params.amount ∧
    ∀ walletId ∈ params.walletId, payout.walletId = walletId

/-- A payout that an approval has made, with the time at which the approval locked the proposal. -/
structure Made (ι : Type) where
  approval : ι
  lockedAt : Nat
  payout : Payout
deriving DecidableEq, Repr

/-! ## The calls -/

inductive Decision where
  | approve
  | reject
deriving DecidableEq, Repr

/-- The statement a call is at. From `findByIdempotencyKey` on, an approval is inside its
transaction, which has locked the proposal at `lockedAt`. -/
inductive Pc where
  | expireIfDue
  | lockPending
  | findByIdempotencyKey (lockedAt : Nat)
  | createWithHold (lockedAt : Nat)
  /-- The unique index has refused the payout. -/
  | findWinner (lockedAt : Nat)
  | submit (payout : Payout)
  | saveExecuted (payout : Payout)
  | saveFailed (failureReason : String)
  | saveRejected
  | returned (status : ProposalStatus)
  | threw (exception : AppException)
  /-- Anything but a rejection was thrown. -/
  | failed
  | crashed
deriving DecidableEq, Repr

/-- The call is in `payouts.request`. -/
def Pc.isRequest : Pc → Bool
  | .findByIdempotencyKey _ | .createWithHold _ | .findWinner _ | .submit _ => true
  | _ => false

/-- The call has ended. -/
def Pc.isOver : Pc → Bool
  | .returned _ | .threw _ | .failed | .crashed => true
  | _ => false

/-- `error.detail.slice(0, 500)`. -/
def failureReason (detail : String) : String := String.ofList (detail.toList.take 500)

structure Call where
  decision : Decision
  userId : Uuid
  note : Option String
  pc : Pc
deriving DecidableEq, Repr

/-- The clock, the proposal's row and who has locked it, the organization's transactions by their
keys, the payouts that approvals have made, and every call. -/
structure Case (ι : Type) where
  now : Nat
  proposal : ActionProposal
  holder : Option ι
  transactions : String → Option Transaction
  made : List (Made ι)
  calls : ι → Option Call

variable {ι : Type} [DecidableEq ι]

namespace Case

/-- Nobody has decided the proposal yet. -/
def start (now : Nat) (proposal : ActionProposal) : Case ι :=
  ⟨now, proposal, none, fun _ => none, [], fun _ => none⟩

def goto (c : Case ι) (i : ι) (call : Call) (pc : Pc) : Case ι :=
  { c with calls := Function.update c.calls i (some { call with pc }) }

/-- The transaction of `i` is over, whether it still had the lock or not. -/
def unlock (c : Case ι) (i : ι) : Case ι :=
  { c with holder := if c.holder = some i then none else c.holder }

/-- The transaction under the proposal's key. -/
def existing (c : Case ι) : Option Transaction :=
  c.transactions (payoutKey c.proposal.id)

/-- Marks a stale proposal expired (its own commit), then refuses it. Waits for the row's lock only
when there is something to change. -/
def expireIfDue (c : Case ι) (i : ι) (call : Call) : Option (Case ι) :=
  if c.proposal.status = .pending ∧ c.proposal.expiresAt ≤ c.now then
    if c.holder = none then
      some { c.goto i call (.threw proposalExpiredException) with
        proposal := { c.proposal with status := .expired, decidedAt := some c.now } }
    else
      none
  else
    some (c.goto i call .lockPending)

/-- `SELECT ... FOR UPDATE`. -/
def lockPending (c : Case ι) (i : ι) (call : Call) : Option (Case ι) :=
  if c.holder = none then
    if c.proposal.status ≠ .pending then
      some (c.goto i call (.threw (proposalAlreadyDecidedException c.proposal.status)))
    else
      some { c.goto i call (match call.decision with
          | .approve => .findByIdempotencyKey c.now
          | .reject => .saveRejected) with
        holder := some i }
  else
    none

/-- `viewByTransaction`. -/
def viewByTransaction : Transaction → Pc
  | .payment => .saveFailed (failureReason payoutNotFoundException.detail)
  | .payout payout => .saveExecuted payout

/-- Commits the decision, unless the lock was lost with the connection. -/
def save (c : Case ι) (i : ι) (call : Call) (status : ProposalStatus)
    (result : Option ProposalResult) (failureReason : Option String) : Case ι :=
  if c.holder = some i then
    { c.goto i call (.returned status) with
      proposal := { c.proposal with
        status, result, failureReason
        decidedByUserId := some call.userId
        decidedAt := some c.now
        decisionNote := call.note }
      holder := none }
  else
    c.goto i call .failed

/-- The next statement of the call `i`. -/
def advance (c : Case ι) (i : ι) (call : Call) : Option (Case ι) :=
  match call.pc with
  | .expireIfDue => c.expireIfDue i call
  | .lockPending => c.lockPending i call
  | .findByIdempotencyKey lockedAt =>
    match c.existing with
    | some transaction => some (c.goto i call (viewByTransaction transaction))
    | none => some (c.goto i call (.createWithHold lockedAt))
  | .findWinner _ =>
    match c.existing with
    | some transaction => some (c.goto i call (viewByTransaction transaction))
    | none => some ((c.unlock i).goto i call .failed)
  | .submit payout => some (c.goto i call (.saveExecuted payout))
  | .saveExecuted payout =>
    some (c.save i call .executed (some ⟨payout.id, payout.reference⟩) none)
  | .saveFailed failureReason => some (c.save i call .failed none (some failureReason))
  | .saveRejected => some (c.save i call .rejected none none)
  | _ => none

/-- The payout's own transaction, with what the database and the services choose for it. -/
def createWithHold (c : Case ι) (i : ι) (lockedAt : Nat) (id : Uuid) (reference : String)
    (walletId : Uuid) (call : Call) : Option (Case ι) :=
  let params := c.proposal.params
  let payout : Payout := ⟨id, reference, params.destinationId, params.amount, walletId⟩
  if params.walletId.all fun given => walletId = given then
    if c.existing.isSome then
      some (c.goto i call (.findWinner lockedAt))
    else
      some { c.goto i call (.submit payout) with
        transactions :=
          Function.update c.transactions (payoutKey c.proposal.id) (some (.payout payout))
        made := ⟨i, lockedAt, payout⟩ :: c.made }
  else
    none

/-- What the environment decides. -/
inductive Action (ι : Type) where
  | tick (now : Nat)
  | approve (i : ι) (userId : Uuid) (note : Option String)
  | reject (i : ι) (userId : Uuid) (note : Option String)
  | advance (i : ι)
  | createWithHold (i : ι) (id : Uuid) (reference : String) (walletId : Uuid)
  /-- `payouts.request` throws. -/
  | refuse (i : ι) (exception : AppException)
  /-- Anything else is thrown. -/
  | outage (i : ι)
  /-- The connection of the approval's transaction breaks, which the call notices when it saves. -/
  | disconnect (i : ι)
  | crash (i : ι)
  /-- The organization requests a payment or a payout with a key of its choice. -/
  | request (key : String) (transaction : Transaction)
deriving DecidableEq, Repr

def step : Action ι → Case ι → Option (Case ι)
  | .tick now, c => if c.now ≤ now then some { c with now } else none
  | .approve i userId note, c =>
    if c.calls i = none then
      some (c.goto i ⟨.approve, userId, note, .expireIfDue⟩ .expireIfDue)
    else
      none
  | .reject i userId note, c =>
    if c.calls i = none then
      some (c.goto i ⟨.reject, userId, note, .lockPending⟩ .lockPending)
    else
      none
  | .advance i, c => (c.calls i).bind (c.advance i)
  | .createWithHold i id reference walletId, c => (c.calls i).bind fun call =>
    match call.pc with
    | .createWithHold lockedAt => c.createWithHold i lockedAt id reference walletId call
    | _ => none
  | .refuse i exception, c => (c.calls i).bind fun call =>
    if call.pc.isRequest then
      -- a rejection is final; an outage isn't, so the proposal stays pending
      if exception.status < 500 then
        some (c.goto i call (.saveFailed (failureReason exception.detail)))
      else
        some ((c.unlock i).goto i call (.threw exception))
    else
      none
  | .outage i, c => (c.calls i).bind fun call =>
    if call.pc.isOver then none else some ((c.unlock i).goto i call .failed)
  | .disconnect i, c => some (c.unlock i)
  | .crash i, c => (c.calls i).bind fun call =>
    if call.pc.isOver then none else some ((c.unlock i).goto i call .crashed)
  | .request key transaction, c =>
    if isValidIdempotencyKey (some key) then
      if c.transactions key = none then
        some { c with transactions := Function.update c.transactions key (some transaction) }
      else
        some c
    else
      none

/-- Everything that can happen in steps that `Admits` lets happen. -/
def Reaches (Admits : Action ι → Case ι → Prop) : Case ι → Case ι → Prop :=
  Schedule.Reaches step Admits

end Case

end Finstack.Proposals
