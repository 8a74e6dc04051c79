import Finstack.Foundation.Schedule
import Finstack.Foundation.UniqueIndex
import Finstack.Model.Limits.Rules

/-! # Requests that move money

`TransfersService.transfer`, `PaymentsService.initialize` and `PayoutsService.request`, statement by
statement, for any number of requests and owners. What the lookups before a request's transaction
find, whether wallets and providers refuse it, and how transactions settle later is up to the
environment.
-/

namespace Finstack.Requests

open Foundation

structure Request where
  owner : Owner
  operation : LimitOperation
  amount : Int
  idempotencyKey : String
deriving DecidableEq, Repr

/-- The DTOs take positive amounts, and only users make transfers. -/
def Request.Valid (request : Request) : Prop :=
  0 < request.amount ∧ (request.operation = .transfer → (ownerUserId request.owner).isSome)

instance (request : Request) : Decidable request.Valid := inferInstanceAs (Decidable (_ ∧ _))

/-- What the lookups before the transaction find: wallets, the other party and the fee. -/
structure Terms where
  currency : String
  counterpartyUserId : Option Uuid := none
  sourceWalletId : Option Uuid := none
  destinationWalletId : Option Uuid := none
  feeAmount : Int := 0
  feeCurrency : Option String := none
deriving DecidableEq, Repr

/-- The terms, and when the database transaction began. -/
structure Begun where
  terms : Terms
  startedAt : Nat
deriving DecidableEq, Repr

/-- What is updated along with a status. -/
structure TransitionPatch where
  ledgerTransactionId : Option Uuid := none
  providerReference : Option String := none
  failureCode : Option String := none
  failureReason : Option String := none
  completedAt : Option Nat := none
deriving DecidableEq, Repr

/-- The rules that are active, and PostgreSQL's hash of a text. -/
structure Setting where
  rules : List LimitRule
  hashtext : String → Int

/-! ## Rows -/

/-- The row of the unique index on the owner's idempotency keys. -/
def hasKey (owner : Owner) (key : String) (transaction : Transaction) : Bool :=
  transaction.owner = owner && transaction.idempotencyKey = some key

def keyConstraint : Owner → String
  | .user _ => "uq_transactions_user_idempotency_key"
  | .organization _ => "uq_transactions_org_idempotency_key"

/-- The constraints whose violation means that another request was first. -/
def caught : LimitOperation → List String
  | .transfer => ["uq_transactions_user_idempotency_key"]
  | .payment | .payout =>
    ["uq_transactions_user_idempotency_key", "uq_transactions_org_idempotency_key"]

def initialStatus : LimitOperation → TransactionStatus
  | .payment => .pending
  | .payout | .transfer => .processing

/-- The row's `created_at` is when its database transaction began. -/
def newTransaction (id : Uuid) (reference : String) (request : Request) (begun : Begun) :
    Transaction where
  id := id
  reference := reference
  type := LimitsService.TRANSACTION_TYPES request.operation
  status := initialStatus request.operation
  owner := request.owner
  counterpartyUserId := begun.terms.counterpartyUserId
  sourceWalletId := begun.terms.sourceWalletId
  destinationWalletId := begun.terms.destinationWalletId
  amount := request.amount
  currency := begun.terms.currency
  feeAmount := begun.terms.feeAmount
  feeCurrency := begun.terms.feeCurrency
  idempotencyKey := some request.idempotencyKey
  createdAt := begun.startedAt

def TransitionPatch.apply (patch : TransitionPatch) (status : TransactionStatus)
    (transaction : Transaction) : Transaction :=
  { transaction with
    status := status
    ledgerTransactionId := patch.ledgerTransactionId.or transaction.ledgerTransactionId
    providerReference := patch.providerReference.or transaction.providerReference
    failureCode := patch.failureCode.or transaction.failureCode
    failureReason := patch.failureReason.or transaction.failureReason
    completedAt := patch.completedAt.or transaction.completedAt }

def limitInput (request : Request) (begun : Begun) : LimitInput :=
  ⟨request.owner, request.operation, begun.terms.currency, request.amount⟩

namespace Setting

variable (setting : Setting)

def activeRule (input : LimitInput) : Option LimitRule :=
  LimitsService.activeRule setting.rules input.operation input.currency input.owner

/-- The key of the advisory lock. -/
def lockKey (input : LimitInput) : Int :=
  let owner := match input.owner with
    | .user id => s!"user:{uuidText id}"
    | .organization id => s!"organization:{uuidText id}"
  setting.hashtext s!"limits:{owner}:{input.operation.text}:{input.currency}"

end Setting

/-! ## Calls -/

/-- The statement a call is at, with what it has read. -/
inductive Pc where
  | findExisting
  | prepare
  | begin (terms : Terms)
  | assertWithinLimits (begun : Begun)
  | lock (begun : Begun) (rule : LimitRule)
  | usage (begun : Begun) (rule : LimitRule)
  | daily (begun : Begun) (rule : LimitRule) (now : Nat)
  | monthly (begun : Begun) (rule : LimitRule) (now : Nat) (daily : Usage)
  | create (begun : Begun)
  /-- The wallet is debited or the amount held; the payment or payout is recorded. -/
  | move (transaction : Transaction)
  /-- A transfer is complete at once. -/
  | transition (transaction : Transaction) (patch : TransitionPatch)
  | commit (transaction : Transaction)
  | findWinner (error : Err)
  /-- The provider is asked, if it need be. -/
  | finish (transaction : Transaction)
  | returned (transaction : Transaction)
  | threw (error : Err)
  | crashed
deriving DecidableEq, Repr

def Pc.isOver : Pc → Bool
  | .returned _ | .threw _ | .crashed => true
  | _ => false

structure Call where
  request : Request
  pc : Pc
deriving DecidableEq, Repr

/-- The clock, the transactions with the ids they ever had, who holds each advisory lock, when each
call has read the clock for its usage, and every call. -/
structure Office (ι : Type) where
  now : Nat
  ids : List Uuid
  transactions : RowStore Uuid Transaction ι
  advisory : Int → Option ι
  checkedAt : ι → Option Nat
  calls : ι → Option Call

variable {ι : Type} [DecidableEq ι]

namespace Office

def start (now : Nat) : Office ι :=
  ⟨now, [], .start fun _ => none, fun _ => none, fun _ => none, fun _ => none⟩

def goto (o : Office ι) (i : ι) (call : Call) (pc : Pc) : Office ι :=
  { o with calls := Function.update o.calls i (some { call with pc }) }

/-- The advisory locks are given up. -/
def release (o : Office ι) (i : ι) : Int → Option ι :=
  fun key => if o.advisory key = some i then none else o.advisory key

def commit (o : Office ι) (i : ι) : Office ι :=
  { o with transactions := o.transactions.commit i, advisory := o.release i }

def rollback (o : Office ι) (i : ι) : Office ι :=
  { o with transactions := o.transactions.rollback i, advisory := o.release i }

/-- The transaction, if there is one, is rolled back with an error. -/
def throw (o : Office ι) (i : ι) (call : Call) (error : Err) : Office ι :=
  (o.rollback i).goto i call (.threw error)

/-- `findOneBy` the owner's key, outside any transaction. -/
def findByIdempotencyKey (o : Office ι) (request : Request) : Option Transaction :=
  o.ids.findSome? fun id =>
    (o.transactions.rows id).filter (hasKey request.owner request.idempotencyKey)

/-- The usage that the call's transaction sees. -/
def usageWithin (o : Office ι) (i : ι) (input : LimitInput) (since : Nat) : Usage :=
  TransactionsService.usageWithin (o.ids.filterMap (o.transactions.view i)) input.owner
    (LimitsService.TRANSACTION_TYPES input.operation) input.currency since

/-- The limits are kept to, or the call fails. -/
def decide (o : Office ι) (i : ι) (call : Call) (begun : Begun) : Except Err Unit → Office ι
  | .error error => o.throw i call error
  | .ok () => o.goto i call (.create begun)

/-- The next statement of the call `i`, unless it waits for a lock. -/
def advance (setting : Setting) (o : Office ι) (i : ι) (call : Call) : Option (Office ι) :=
  match call.pc with
  | .findExisting =>
    match o.findByIdempotencyKey call.request with
    | some existing => some (o.goto i call (.finish existing))
    | none => some (o.goto i call .prepare)
  | .begin terms => some (o.goto i call (.assertWithinLimits ⟨terms, o.now⟩))
  | .assertWithinLimits begun =>
    match setting.activeRule (limitInput call.request begun) with
    | none => some (o.goto i call (.create begun))
    | some rule =>
      match LimitsService.checkTransaction rule (limitInput call.request begun) with
      | .error error => some (o.throw i call error)
      | .ok () =>
        if LimitsService.readsUsage rule then some (o.goto i call (.lock begun rule))
        else some (o.goto i call (.create begun))
  | .lock begun rule =>
    let key := setting.lockKey (limitInput call.request begun)
    if o.advisory key = none ∨ o.advisory key = some i then
      some { o.goto i call (.usage begun rule) with
        advisory := Function.update o.advisory key (some i) }
    else
      none
  | .usage begun rule =>
    some { o.goto i call (.daily begun rule o.now) with
      checkedAt := Function.update o.checkedAt i (some o.now) }
  | .daily begun rule now =>
    let input := limitInput call.request begun
    let daily := o.usageWithin i input (now - LimitsService.DAY_MS)
    if rule.maxMonthlyAmount.isSome then some (o.goto i call (.monthly begun rule now daily))
    else some (o.decide i call begun (LimitsService.checkUsage rule input daily 0))
  | .monthly begun rule now daily =>
    let input := limitInput call.request begun
    let monthly := o.usageWithin i input (now - LimitsService.MONTH_MS)
    some (o.decide i call begun (LimitsService.checkUsage rule input daily monthly.amount))
  | .transition transaction patch =>
    match o.transactions.view i transaction.id with
    | none => some (o.throw i call (.app ⟨"TRANSACTION_NOT_FOUND", "Transaction not found",
        HttpStatus.notFound⟩))
    | some current =>
      if canTransition current.status .successful then
        let completed := patch.apply .successful current
        some { o.goto i call (.commit completed) with
          transactions := o.transactions.write i transaction.id (some completed) }
      else
        some (o.throw i call (.app ⟨"INVALID_TRANSACTION_STATE",
          s!"A {current.status.text} transaction cannot become successful", HttpStatus.conflict⟩))
  | .commit transaction => some ((o.commit i).goto i call (.finish transaction))
  | .findWinner error =>
    match o.findByIdempotencyKey call.request with
    | some winner => some (o.goto i call (.returned winner))
    | none => some (o.goto i call (.threw error))
  | .finish transaction => some (o.goto i call (.returned transaction))
  | .prepare | .create _ | .move _ | .returned _ | .threw _ | .crashed => none

/-- The INSERT of the transaction, with the id that the database generates and a random reference. -/
def create (o : Office ι) (i : ι) (id : Uuid) (reference : String) (call : Call) :
    Option (Office ι) :=
  match call.pc with
  | .create begun =>
    let index := hasKey call.request.owner call.request.idempotencyKey
    if id ∈ o.ids then
      none
    else if o.transactions.Taken index o.ids i id then
      let error := Err.database (.uniqueViolation (keyConstraint call.request.owner))
      if isUniqueViolation error (caught call.request.operation) then
        some ((o.rollback i).goto i call (.findWinner error))
      else
        some (o.throw i call error)
    else if o.transactions.Waits index o.ids i id then
      none
    else
      let transaction := newTransaction id reference call.request begun
      some { o.goto i call (.move transaction) with
        ids := id :: o.ids
        transactions := o.transactions.write i id (some transaction) }
  | _ => none

/-- What the environment decides. -/
inductive Action (ι : Type) where
  | tick (now : Nat)
  /-- A transaction of an earlier request settles. -/
  | settle (i : ι) (id : Uuid) (status : TransactionStatus) (patch : TransitionPatch)
  /-- A refund's transaction is recorded. -/
  | refund (i : ι) (transaction : Transaction)
  | request (i : ι) (request : Request)
  | prepare (i : ι) (terms : Terms)
  | advance (i : ι)
  | create (i : ι) (id : Uuid) (reference : String)
  | move (i : ι) (patch : TransitionPatch)
  /-- A lookup, a wallet or a provider fails, or the database is out of reach. -/
  | refuse (i : ι) (error : Err)
  | crash (i : ι)
deriving DecidableEq, Repr

def step (setting : Setting) : Action ι → Office ι → Option (Office ι)
  | .tick now, o => if o.now ≤ now then some { o with now } else none
  | .settle i id status patch, o =>
    match o.transactions.rows id with
    | none => none
    | some current =>
      if o.calls i = none ∧ o.transactions.holder id = none ∧
          canTransition current.status status then
        some { o with transactions :=
          (o.transactions.write i id (some (patch.apply status current))).commit i }
      else
        none
  | .refund i transaction, o =>
    if o.calls i = none ∧ transaction.id ∉ o.ids ∧ transaction.type = .refund ∧
        transaction.idempotencyKey = none ∧ transaction.amount > 0 then
      some { o with
        ids := transaction.id :: o.ids
        transactions := (o.transactions.write i transaction.id (some transaction)).commit i }
    else
      none
  | .request i request, o =>
    if o.calls i = none ∧ request.Valid then
      some (o.goto i ⟨request, .findExisting⟩ .findExisting)
    else
      none
  | .prepare i terms, o => (o.calls i).bind fun call =>
    if call.pc = .prepare then some (o.goto i call (.begin terms)) else none
  | .advance i, o => (o.calls i).bind (o.advance setting i)
  | .create i id reference, o => (o.calls i).bind (o.create i id reference)
  | .move i patch, o => (o.calls i).bind fun call =>
    match call.pc with
    | .move transaction =>
      if call.request.operation = .transfer then
        some (o.goto i call (.transition transaction patch))
      else
        some (o.goto i call (.commit transaction))
    | _ => none
  | .refuse i error, o => (o.calls i).bind fun call =>
    if call.pc.isOver then none else some (o.throw i call error)
  | .crash i, o => (o.calls i).bind fun call =>
    if call.pc.isOver then none else some ((o.rollback i).goto i call .crashed)

/-- Whose step it is. -/
def Action.caller : Action ι → Option ι
  | .tick _ => none
  | .settle i _ _ _ | .refund i _ | .request i _ | .prepare i _ | .advance i | .create i _ _
  | .move i _ | .refuse i _ | .crash i => some i

/-- Everything that can happen in steps that `Admits` lets happen. -/
def Reaches (setting : Setting) (Admits : Action ι → Office ι → Prop) :
    Office ι → Office ι → Prop :=
  Schedule.Reaches (step setting) Admits

end Office

end Finstack.Requests
