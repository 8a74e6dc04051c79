import Finstack.Model.Services.Rows

/-! # Transactions, fees and limits

The services that every operation uses for the business record, the fee and the limits. Rows get
the ids and random references given here.
-/

namespace Finstack.Services

open Foundation

namespace TransactionsService

export Requests (TransitionPatch)

def transactionNotFoundException : Err :=
  .app ⟨"TRANSACTION_NOT_FOUND", "Transaction not found", HttpStatus.notFound⟩

def invalidTransactionStateException (current next : TransactionStatus) : Err :=
  .app ⟨"INVALID_TRANSACTION_STATE", s!"A {current.text} transaction cannot become {next.text}",
    HttpStatus.conflict⟩

def assertTransition (current next : TransactionStatus) : Except Err Unit :=
  if canTransition current next then .ok ()
  else .error (invalidTransactionStateException current next)

/-- `trx_${randomBytes(10).toString('hex')}` -/
def generateReference (random : Nat) : String := "trx_" ++ String.ofList (hexDigits 20 random)

structure NewTransaction where
  type : TransactionType
  status : TransactionStatus
  owner : Owner
  counterpartyUserId : Option Uuid := none
  sourceWalletId : Option Uuid := none
  destinationWalletId : Option Uuid := none
  amount : Int
  currency : String
  idempotencyKey : Option String := none
  feeAmount : Int := 0
  feeCurrency : Option String := none

def newTransaction (id : Uuid) (random : Nat) (createdAt : Nat) (input : NewTransaction) :
    Transaction where
  id := id
  reference := generateReference random
  type := input.type
  status := input.status
  owner := input.owner
  counterpartyUserId := input.counterpartyUserId
  sourceWalletId := input.sourceWalletId
  destinationWalletId := input.destinationWalletId
  amount := input.amount
  currency := input.currency
  feeAmount := input.feeAmount
  feeCurrency := input.feeCurrency
  idempotencyKey := input.idempotencyKey
  createdAt := createdAt

def create (id : Uuid) (random : Nat) (input : NewTransaction) : DbTxn Transaction := do
  let now ← Txn.query (·.clock)
  let row := newTransaction id random now input
  save (Db.transactionLocks row) (Db.checkNewTransaction row) (Db.onTransactions (·.insert row))
  pure row

def getById (manager : Manager) (id : Uuid) : DbTxn Transaction := do
  let found ← manager.query fun db => db.transactions.find? id
  orThrow transactionNotFoundException found

/-- `SELECT ... FOR UPDATE` -/
def lockWithin (id : Uuid) : DbTxn Transaction := do
  let found ← Txn.select [.transaction id] fun db => db.transactions.find? id
  orThrow transactionNotFoundException found

/-- Moves a transaction to a new status under a row lock. -/
def transition (id : Uuid) (status : TransactionStatus) (patch : TransitionPatch := {}) :
    DbTxn Transaction := do
  let current ← lockWithin id
  check (assertTransition current.status status)
  save [.transaction id] (Db.checkTransition id (patch.apply status))
    (Db.onTransactions (·.modify id (patch.apply status)))
  let found ← Txn.query fun db => db.transactions.find? id
  orFail "Transaction" found

def findByIdempotencyKey (owner : Owner) (idempotencyKey : String) : DbTxn (Option Transaction) :=
  Txn.queryCommitted fun db => db.findByIdempotencyKey owner idempotencyKey

/-- Adds keys to the metadata, which nothing reads: only the row lock is left of it. -/
def mergeMetadataWithin (id : Uuid) : DbTxn Unit := Txn.execute [.transaction id] fun db => db

end TransactionsService

/-! ## Fees -/

/-- Held within the rule's bounds, rounded up to the minor unit. -/
def calculateFee (amount : Int) (rule : FeeRule) : Except Err Int :=
  if amount ≤ 0 then .error (.internal "Error" "Fee amount must be positive")
  else
    let percentage := (amount * rule.percentageBps + 9999).tdiv 10000
    let fee := rule.fixedAmount + percentage
    let fee := if fee < rule.minAmount then rule.minAmount else fee
    .ok <| match rule.maxAmount with
      | some most => if fee > most then most else fee
      | none => fee

structure FeeQuote where
  /-- Minor units of `currency`; 0 when no rule applies. -/
  amount : Int
  currency : String
deriving DecidableEq, Repr

namespace FeesService

/-- The active rule of this scope. -/
def ruleOf (operation : FeeOperation) (currency : String) (organizationId : Option Uuid) :
    DbTxn (Option FeeRule) :=
  Txn.queryCommitted fun db => db.feeRules.find? fun rule =>
    rule.operation = operation && rule.currency = currency &&
      rule.organizationId = organizationId && rule.supersededAt.isNone

/-- An organization's rule wins over the platform default. -/
def activeRule (operation : FeeOperation) (currency : String) (organizationId : Option Uuid) :
    DbTxn (Option FeeRule) :=
  match organizationId with
  | some id => do
    let own ← ruleOf operation currency (some id)
    if own.isSome then pure own else ruleOf operation currency none
  | none => ruleOf operation currency none

/-- The fee for `amount` under the active rule. -/
def quote (operation : FeeOperation) (currency : String) (amount : Int)
    (organizationId : Option Uuid := none) : DbTxn FeeQuote := do
  match ← activeRule operation currency organizationId with
  | some rule => do
    let fee ← Prog.ret (calculateFee amount rule)
    pure ⟨fee, currency⟩
  | none => pure ⟨0, currency⟩

/-- What a transaction records of its fee. -/
def recorded (fee : FeeQuote) (input : TransactionsService.NewTransaction) :
    TransactionsService.NewTransaction :=
  if fee.amount > 0 then { input with feeAmount := fee.amount, feeCurrency := some fee.currency }
  else input

end FeesService

/-! ## Limits -/

namespace LimitsService

/-- The active rule of this scope. -/
def ruleOf (input : LimitInput) (organizationId : Option Uuid) : DbTxn (Option LimitRule) :=
  Txn.queryCommitted fun db => db.limitRules.find? fun rule =>
    rule.operation = input.operation && rule.currency = input.currency &&
      rule.organizationId = organizationId && rule.supersededAt.isNone

def activeRule (input : LimitInput) : DbTxn (Option LimitRule) :=
  match input.owner with
  | .organization id => do
    let own ← ruleOf input (some id)
    if own.isSome then pure own else ruleOf input none
  | .user _ => ruleOf input none

/-- What the advisory lock is on. -/
def lockKey (input : LimitInput) : String :=
  let owner := match input.owner with
    | .user id => s!"user:{uuidText id}"
    | .organization id => s!"organization:{uuidText id}"
  s!"limits:{owner}:{input.operation.text}:{input.currency}"

def usageWithin (input : LimitInput) (since : Nat) : DbTxn Usage :=
  Txn.query fun db => Finstack.TransactionsService.usageWithin db.transactions.rows input.owner
    (Finstack.LimitsService.TRANSACTION_TYPES input.operation) input.currency since

/-- What the owner has moved in 24 hours and, where the rule asks, how much in 30 days. -/
def usage (input : LimitInput) (rule : LimitRule) : DbTxn (Usage × Int) := do
  let now ← Txn.query (·.clock)
  let daily ← usageWithin input (now - Finstack.LimitsService.DAY_MS)
  if rule.maxMonthlyAmount.isSome then
    let monthly ← usageWithin input (now - Finstack.LimitsService.MONTH_MS)
    pure (daily, monthly.amount)
  else pure (daily, 0)

/-- Serialises the owner's operations of this kind until commit. -/
def assertUsageWithin (input : LimitInput) (rule : LimitRule) : DbTxn Unit := do
  Txn.select [.advisory (lockKey input)] fun _ => ()
  let (daily, monthlyAmount) ← usage input rule
  check (Finstack.LimitsService.checkUsage rule input daily monthlyAmount)

/-- Throws LIMIT_EXCEEDED if `amount` would break a limit. -/
def assertWithinLimitsWithin (input : LimitInput) : DbTxn Unit := do
  match ← activeRule input with
  | some rule => do
    check (Finstack.LimitsService.checkTransaction rule input)
    if Finstack.LimitsService.readsUsage rule then assertUsageWithin input rule else pure ()
  | none => pure ()

end LimitsService

end Finstack.Services
