import Finstack.Model.Services.Wallets

/-! # Payouts

Money out of a wallet to a bank account: the hold, and what settles it. Submission to the provider,
which comes between, touches no money here; the ends it can come to are calls of their own.
-/

namespace Finstack

/-- `YYYY-MM-DDTHH:mm:ss.sssZ` of milliseconds since 1970, by counting days from 1 March 0000. -/
def toISOString (time : Nat) : String :=
  let pad (width value : Nat) : String :=
    let digits := toString value
    "".pushn '0' (width - digits.length) ++ digits
  let days := time / 86400000 + 719468
  let era := days / 146097
  let dayOfEra := days % 146097
  let yearOfEra := (dayOfEra - dayOfEra / 1460 + dayOfEra / 36524 - dayOfEra / 146096) / 365
  let dayOfYear := dayOfEra - (365 * yearOfEra + yearOfEra / 4 - yearOfEra / 100)
  let shifted := (5 * dayOfYear + 2) / 153
  let day := dayOfYear - (153 * shifted + 2) / 5 + 1
  let month := if shifted < 10 then shifted + 3 else shifted - 9
  let year := yearOfEra + era * 400 + if month ≤ 2 then 1 else 0
  pad 4 year ++ "-" ++ pad 2 month ++ "-" ++ pad 2 day ++ "T" ++ pad 2 (time / 3600000 % 24) ++
    ":" ++ pad 2 (time / 60000 % 60) ++ ":" ++ pad 2 (time / 1000 % 60) ++ "." ++
    pad 3 (time % 1000) ++ "Z"

example : toISOString 951782400123 = "2000-02-29T00:00:00.123Z" := by decide +kernel

namespace Services

open Foundation

namespace PayoutsService

def payoutNotFoundException : Err :=
  .app ⟨"PAYOUT_NOT_FOUND", "Payout not found", HttpStatus.notFound⟩

def payoutDestinationNotFoundException : Err :=
  .app ⟨"PAYOUT_DESTINATION_NOT_FOUND", "Payout destination not found", HttpStatus.notFound⟩

/-- New bank accounts wait before payouts. -/
def payoutDestinationCoolingOffException (availableAt : Nat) : Err :=
  .app ⟨"PAYOUT_DESTINATION_COOLING_OFF",
    "This bank account was added recently and can receive payouts from " ++ toISOString availableAt,
    HttpStatus.unprocessableEntity⟩

structure RequestPayoutInput where
  destinationId : Uuid
  /-- Minor units of the wallet's currency. -/
  amount : Int
  /-- Defaults to the owner's wallet in the destination's currency. -/
  walletId : Option Uuid := none

structure PayoutView where
  payout : Payout
  transaction : Transaction
  destination : PayoutDestination

/-! ## Reading -/

def view (payoutId : Uuid) : DbTxn PayoutView := do
  let read ← Txn.queryCommitted fun db => db.payouts.find? payoutId
  let found ← orThrow payoutNotFoundException read
  let transaction ← TransactionsService.getById .dataSource found.transactionId
  let again ← Txn.queryCommitted fun db => db.payouts.find? payoutId
  let payout ← orFail "Payout" again
  let destination ← Txn.queryCommitted fun db => db.destinations.find? payout.destinationId
  let destination ← orFail "PayoutDestination" destination
  pure ⟨payout, transaction, destination⟩

def viewByTransaction (transactionId : Uuid) : DbTxn PayoutView := do
  let found ← Txn.queryCommitted fun db => db.findPayoutByTransaction transactionId
  let payout ← orThrow payoutNotFoundException found
  view payout.id

/-- The owner's destination, unless it was removed. -/
def getActive (owner : Owner) (destinationId : Uuid) : DbTxn PayoutDestination := do
  let found ← Txn.queryCommitted fun db => db.destinations.find? destinationId
  orThrow payoutDestinationNotFoundException
    (found.filter fun destination => destination.owner = owner && destination.removedAt.isNone)

/-! ## The hold -/

def noWalletException (currency : String) : Err :=
  .app ⟨"WALLET_NOT_FOUND", s!"No {currency} wallet to pay out from", HttpStatus.notFound⟩

def destinationMismatchException (wallet : Wallet) (destination : PayoutDestination) : Err :=
  currencyMismatchException
    s!"The wallet holds {wallet.currency}, but the destination receives {destination.currency}"

def sourceWallet (owner : Owner) (destination : PayoutDestination) (walletId : Option Uuid) :
    DbTxn Wallet := do
  let wallet ← match walletId with
    | some walletId => WalletsService.findOwned owner walletId
    | none => do
      let found ← WalletsService.findWallet owner destination.currency
      orThrow (noWalletException destination.currency) found
  if wallet.currency ≠ destination.currency then
    Txn.throw (destinationMismatchException wallet destination)
  else pure wallet

/-- `pyt_${randomBytes(10).toString('hex')}` -/
def generatePayoutReference (random : Nat) : String :=
  "pyt_" ++ String.ofList (hexDigits 20 random)

/-- What is generated for a request. -/
structure Generated where
  fresh : Fresh
  transaction : Nat
  payout : Nat

def newTransaction (owner : Owner) (wallet : Wallet) (input : RequestPayoutInput) (fee : FeeQuote)
    (idempotencyKey : String) : TransactionsService.NewTransaction :=
  FeesService.recorded fee {
    type := .withdrawal
    status := .processing
    owner := owner
    sourceWalletId := some wallet.id
    amount := input.amount
    currency := wallet.currency
    idempotencyKey := some idempotencyKey }

def holdMovement (reference : String) (amount : Int) : MoneyMovement :=
  ⟨amount, s!"payout-hold:{reference}", s!"Hold for payout {reference}"⟩

def newPayout (id transactionId : Uuid) (reference : String) (owner : Owner) (wallet : Wallet)
    (destination : PayoutDestination) (amount : Int) (createdAt : Nat) : Payout where
  id := id
  reference := reference
  transactionId := transactionId
  owner := owner
  walletId := wallet.id
  destinationId := destination.id
  provider := destination.provider
  amount := amount
  currency := wallet.currency
  createdAt := createdAt

/-- The transaction, the hold and the payout, in one database transaction. -/
def createWithHold (generated : Generated) (owner : Owner) (wallet : Wallet)
    (destination : PayoutDestination) (input : RequestPayoutInput) (fee : FeeQuote)
    (idempotencyKey : String) : DbTxn Payout := do
  LimitsService.assertWithinLimitsWithin ⟨owner, .payout, wallet.currency, input.amount⟩
  let reference := generatePayoutReference generated.payout
  let transaction ← TransactionsService.create (generated.fresh 0) generated.transaction
    (newTransaction owner wallet input fee idempotencyKey)
  let _ ← WalletsService.reserveWithin (generated.fresh 1) wallet.id
    (holdMovement reference (input.amount + fee.amount))
  let now ← Txn.query (·.clock)
  let payout := newPayout (generated.fresh 2) transaction.id reference owner wallet destination
    input.amount now
  save (Db.payoutLocks payout) (Db.checkNewPayout payout) (Db.onPayouts (·.insert payout))
  pure payout

def KEY_CONSTRAINTS : List String :=
  ["uq_transactions_user_idempotency_key", "uq_transactions_org_idempotency_key"]

/-- A concurrent request with the same key committed first: its payout is the answer. -/
def recover (owner : Owner) (idempotencyKey : String) (error : Err) : DbTxn PayoutView := do
  if isUniqueViolation error KEY_CONSTRAINTS then
    match ← TransactionsService.findByIdempotencyKey owner idempotencyKey with
    | some winner => viewByTransaction winner.id
    | none => Txn.throw error
  else Txn.throw error

/-- A new payout, up to its hold: its submission is not part of this. -/
def requestNew (generated : Generated) (owner : Owner) (input : RequestPayoutInput)
    (idempotencyKey : String) : DbTxn PayoutView := do
  let destination ← getActive owner input.destinationId
  let now ← Txn.queryCommitted (·.clock)
  if now < destination.payoutsAvailableAt then
    Txn.throw (payoutDestinationCoolingOffException destination.payoutsAvailableAt)
  else
    let wallet ← sourceWallet owner destination input.walletId
    let fee ← FeesService.quote .payout wallet.currency input.amount (ownerOrganizationId owner)
    let outcome ← Txn.tryCatch (do
      let payout ← inTransaction
        (createWithHold generated owner wallet destination input fee idempotencyKey)
      pure (Sum.inl payout)) fun error => do
        let winner ← recover owner idempotencyKey error
        pure (Sum.inr winner)
    match outcome with
    | .inl payout => view payout.id
    | .inr winner => pure winner

/-- Idempotent by key, per owner. -/
def request (generated : Generated) (owner : Owner) (input : RequestPayoutInput)
    (idempotencyKey : String) : DbTxn PayoutView := do
  match ← TransactionsService.findByIdempotencyKey owner idempotencyKey with
  | some existing => viewByTransaction existing.id
  | none => requestNew generated owner input idempotencyKey

/-! ## The end -/

def eventOf (payout : Payout) (transaction : Transaction) : PayoutEvent where
  payoutId := payout.id
  reference := payout.reference
  transactionId := transaction.id
  owner := payout.owner
  walletId := payout.walletId
  amount := payout.amount
  currency := payout.currency

/-- The held amount leaves for the bank. -/
def completionInput (payout : Payout) (wallet : Wallet) (clearing : Uuid) : PostingInput where
  reference := s!"payout:{payout.reference}"
  description := s!"Payout {payout.reference}"
  currency := payout.currency
  entries := [⟨wallet.reservedAccountId, .debit, payout.amount⟩, ⟨clearing, .credit, payout.amount⟩]

def collectFee (fresh : Fresh) (payout : Payout) (transaction : Transaction) : DbTxn Unit := do
  if transaction.feeAmount > 0 then
    let _ ← WalletsService.collectFeeWithin fresh payout.walletId .reserved
      ⟨transaction.feeAmount, s!"fee:payout:{payout.reference}", s!"Fee for payout {payout.reference}"⟩
    pure ()
  else pure ()

/-- The provider paid it out. -/
def complete (fresh : Fresh) (payout : Payout) : DbTxn Unit := do
  let clearing ← WalletsService.clearingAccount (fresh 0) payout.currency
  inTransaction do
    let transaction ← TransactionsService.lockWithin payout.transactionId
    if transaction.status ≠ .processing then pure ()
    else
      let wallet ← WalletsService.getWallet payout.walletId
      let posted ← LedgerService.postWithin (fresh 1) (completionInput payout wallet clearing.id)
      collectFee (fun n => fresh (n + 2)) payout transaction
      let now ← Txn.query (·.clock)
      let _ ← TransactionsService.transition transaction.id .successful {
        ledgerTransactionId := some posted.transaction.id
        providerReference := payout.providerReference
        completedAt := some now }
      OutboxService.add ⟨transaction.id, .payoutSuccessful (eventOf payout transaction)⟩

def releaseMovement (payout : Payout) (transaction : Transaction) : MoneyMovement :=
  ⟨payout.amount + transaction.feeAmount, s!"payout-release:{payout.reference}",
    s!"Release hold for failed payout {payout.reference}"⟩

/-- The provider did not pay it out: the hold is released. -/
def fail (id : Uuid) (payout : Payout) (failureCode failureReason : String) : DbTxn Unit :=
  inTransaction do
    let transaction ← TransactionsService.lockWithin payout.transactionId
    if transaction.status ≠ .processing then pure ()
    else
      let _ ← WalletsService.releaseWithin id payout.walletId (releaseMovement payout transaction)
      let _ ← TransactionsService.transition transaction.id .failed {
        failureCode := some failureCode
        failureReason := some (String.ofList (failureReason.toList.take 500)) }
      OutboxService.add ⟨transaction.id, .payoutFailed (eventOf payout transaction) failureCode⟩

def reversalInput (payout : Payout) (wallet : Wallet) (clearing : Uuid) : PostingInput where
  reference := s!"payout-reversal:{payout.reference}"
  description := s!"Reversal of payout {payout.reference}"
  currency := payout.currency
  entries := [⟨clearing, .debit, payout.amount⟩, ⟨wallet.availableAccountId, .credit, payout.amount⟩]

def refundFee (fresh : Fresh) (payout : Payout) (transaction : Transaction) : DbTxn Unit := do
  if transaction.feeAmount > 0 then
    let _ ← WalletsService.refundFeeWithin fresh payout.walletId
      ⟨transaction.feeAmount, s!"fee-refund:payout:{payout.reference}",
        s!"Fee refund for reversed payout {payout.reference}"⟩
    pure ()
  else pure ()

/-- The provider returned a completed payout: the wallet is credited back. -/
def reverse (fresh : Fresh) (payout : Payout) : DbTxn Unit := do
  let clearing ← WalletsService.clearingAccount (fresh 0) payout.currency
  inTransaction do
    let transaction ← TransactionsService.lockWithin payout.transactionId
    if transaction.status ≠ .successful then pure ()
    else
      let wallet ← WalletsService.getWallet payout.walletId
      let _ ← LedgerService.postWithin (fresh 1) (reversalInput payout wallet clearing.id)
      refundFee (fun n => fresh (n + 2)) payout transaction
      let _ ← TransactionsService.transition transaction.id .reversed
      OutboxService.add ⟨transaction.id, .payoutReversed (eventOf payout transaction)⟩

end PayoutsService

end Services

end Finstack
