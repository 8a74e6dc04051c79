import Finstack.Model.Services.Wallets

/-! # Transfers

Between users' wallets in the same currency: the transaction record, the postings and the final
status commit together, or not at all.
-/

namespace Finstack.Services

open Foundation

namespace TransfersService

def recipientNotFoundException : Err :=
  .app ⟨"RECIPIENT_NOT_FOUND", "No user with this email", HttpStatus.unprocessableEntity⟩

def selfTransferException : Err :=
  .app ⟨"SELF_TRANSFER", "You cannot transfer to yourself", HttpStatus.unprocessableEntity⟩

def noWalletInCurrencyException (currency : String) : Err :=
  .app ⟨"NO_WALLET_IN_CURRENCY", s!"You have no {currency} wallet to send from",
    HttpStatus.unprocessableEntity⟩

def recipientCannotReceiveException (currency : String) : Err :=
  .app ⟨"RECIPIENT_CANNOT_RECEIVE_CURRENCY", s!"The recipient has no {currency} wallet",
    HttpStatus.unprocessableEntity⟩

structure TransferInput where
  recipientEmail : String
  /-- Minor units. -/
  amount : Int
  /-- Defaults to the sender's primary wallet currency. -/
  currency : Option String := none
  description : Option String := none

/-- What is generated for a transfer. -/
structure Generated where
  fresh : Fresh
  random : Nat

/-! ## The wallets -/

/-- `email.trim().toLowerCase()`, of an address in ASCII. -/
def normalizeEmail (email : String) : String :=
  let trimmed := (email.toList.dropWhile isTrimmed).reverse.dropWhile isTrimmed
  String.ofList (trimmed.reverse.map Char.toLower)

def findByEmail (email : String) : DbTxn (Option User) :=
  Txn.queryCommitted fun db => db.users.find? fun user => user.email = normalizeEmail email

/-- The currency asked for, or the primary wallet's. -/
def currencyOf (userId : Uuid) (input : TransferInput) : DbTxn (Option String) :=
  match input.currency with
  | some currency => pure (some currency)
  | none => do
    let primary ← WalletsService.findPrimaryWallet (.user userId)
    pure (primary.map (·.currency))

def senderWallet (userId : Uuid) (input : TransferInput) : DbTxn Wallet := do
  match ← currencyOf userId input with
  | some currency => do
    let found ← WalletsService.findWallet (.user userId) currency
    orThrow (noWalletInCurrencyException currency) found
  | none => Txn.throw (noWalletInCurrencyException "primary")

def recipientWallet (recipientId : Uuid) (currency : String) : DbTxn Wallet := do
  let found ← WalletsService.findWallet (.user recipientId) currency
  orThrow (recipientCannotReceiveException currency) found

/-! ## The movement -/

def newTransaction (userId recipientId : Uuid) (source destination : Wallet) (input : TransferInput)
    (fee : FeeQuote) (idempotencyKey : String) : TransactionsService.NewTransaction :=
  FeesService.recorded fee {
    type := .transfer
    status := .processing
    owner := .user userId
    counterpartyUserId := some recipientId
    sourceWalletId := some source.id
    destinationWalletId := some destination.id
    amount := input.amount
    currency := source.currency
    idempotencyKey := some idempotencyKey }

def transferMovement (transaction : Transaction) (input : TransferInput) : MoneyMovement :=
  ⟨input.amount, s!"transfer:{transaction.reference}", input.description.getD "Transfer"⟩

/-- Fails, and rolls everything back, if amount and fee are not covered. -/
def collectFee (fresh : Fresh) (source : Wallet) (transaction : Transaction) (fee : FeeQuote) :
    DbTxn Unit := do
  if fee.amount > 0 then
    let _ ← WalletsService.collectFeeWithin fresh source.id .available
      ⟨fee.amount, s!"fee:transfer:{transaction.reference}",
        s!"Fee for transfer {transaction.reference}"⟩
    pure ()
  else pure ()

def move (generated : Generated) (userId recipientId : Uuid) (source destination : Wallet)
    (input : TransferInput) (fee : FeeQuote) (idempotencyKey : String) : DbTxn Transaction := do
  LimitsService.assertWithinLimitsWithin ⟨.user userId, .transfer, source.currency, input.amount⟩
  let transaction ← TransactionsService.create (generated.fresh 0) generated.random
    (newTransaction userId recipientId source destination input fee idempotencyKey)
  let posted ← WalletsService.transferWithin (generated.fresh 1) source destination
    (transferMovement transaction input)
  collectFee (fun n => generated.fresh (n + 2)) source transaction fee
  let now ← Txn.query (·.clock)
  let completed ← TransactionsService.transition transaction.id .successful {
    ledgerTransactionId := some posted.transaction.id
    completedAt := some now }
  OutboxService.add ⟨completed.id, .transferCompleted completed.id completed.reference userId
    recipientId completed.amount completed.currency fee.amount⟩
  pure completed

/-- A concurrent request with the same key committed first: it is the answer. -/
def recover (userId : Uuid) (idempotencyKey : String) (error : Err) : DbTxn Transaction := do
  if isUniqueViolation error ["uq_transactions_user_idempotency_key"] then
    match ← TransactionsService.findByIdempotencyKey (.user userId) idempotencyKey with
    | some winner => pure winner
    | none => Txn.throw error
  else Txn.throw error

def transferNew (generated : Generated) (userId : Uuid) (input : TransferInput)
    (idempotencyKey : String) : DbTxn Transaction := do
  let found ← findByEmail input.recipientEmail
  let recipient ← orThrow recipientNotFoundException found
  if recipient.id = userId then Txn.throw selfTransferException
  else
    let source ← senderWallet userId input
    let destination ← recipientWallet recipient.id source.currency
    let fee ← FeesService.quote .transfer source.currency input.amount
    Txn.tryCatch (inTransaction
      (move generated userId recipient.id source destination input fee idempotencyKey))
      (recover userId idempotencyKey)

/-- Idempotent by key, per user. -/
def transfer (generated : Generated) (userId : Uuid) (input : TransferInput)
    (idempotencyKey : String) : DbTxn Transaction := do
  match ← TransactionsService.findByIdempotencyKey (.user userId) idempotencyKey with
  | some existing => pure existing
  | none => transferNew generated userId input idempotencyKey

end TransfersService

end Finstack.Services
