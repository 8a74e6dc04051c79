import Finstack.Model.Services.Wallets

/-! # Payments

How a payment that its provider has verified is settled, and how its settlement hold ends. Logs are
left out; the provider's answer is an argument.
-/

namespace Finstack.Services

open Foundation

namespace PaymentsService

def paymentNotFoundException : Err :=
  .app ⟨"PAYMENT_NOT_FOUND", "Payment not found", HttpStatus.notFound⟩

def lockWithin (id : Uuid) : DbTxn Payment := do
  let found ← Txn.select [.payment id] fun db => db.payments.find? id
  orThrow paymentNotFoundException found

def getById (manager : Manager) (id : Uuid) : DbTxn Payment := do
  let found ← manager.query fun db => db.payments.find? id
  orThrow paymentNotFoundException found

def update (id : Uuid) (change : Payment → Payment) : DbTxn Unit :=
  save [.payment id] (fun db => Db.checkUpdate Db.checkPayment change (db.payments.find? id))
    (Db.onPayments (·.modify id change))

/-- Sets how much of the payment's credit is still in its settlement hold. -/
def setHeldAmountWithin (id : Uuid) (pendingAmount : Int) : DbTxn Unit :=
  update id fun payment => { payment with pendingAmount := pendingAmount }

end PaymentsService

/-! ## Settlement -/

namespace PaymentSettlementService

inductive SettlementOutcome where
  | credited
  | alreadySettled
  | stillPending
  | failed
  | amountMismatch
  | ignored
deriving DecidableEq, Repr

def OPEN_STATUSES : List TransactionStatus := [.pending, .processing]

/-- What settlement works with: the configured hold, and the offer of a fresh quote at the rate of
the moment. -/
structure Setting where
  holdMs : Nat
  requote : Except Err FxService.Offer

/-- The quote locked at checkout, or a fresh one if the customer paid after it expired. -/
def usableQuoteId (id : Uuid) (requote : Except Err FxService.Offer) (payment : Payment)
    (fxQuoteId : Uuid) : DbTxn Uuid := do
  let quote ← FxService.getQuoteWithin fxQuoteId
  let now ← Txn.query (·.clock)
  if quote.consumedAt.isSome ∨ now < quote.expiresAt then pure quote.id
  else
    let fresh ← FxService.createQuote id (ownerUserId payment.owner) quote.sourceCurrency
      quote.targetCurrency payment.amount requote
    PaymentsService.update payment.id fun row => { row with fxQuoteId := some fresh.id }
    TransactionsService.mergeMetadataWithin payment.transactionId
    pure fresh.id

/-- The credit, converted if needed: the ledger transaction and what was credited. -/
def creditWallet (fresh : Fresh) (setting : Setting) (payment : Payment)
    (transaction : Transaction) (into : WalletBalance) : DbTxn (Uuid × Money) := do
  let reference := s!"payment:{transaction.reference}"
  let description := s!"Payment {transaction.reference}"
  match payment.fxQuoteId with
  | some fxQuoteId => do
    let quoteId ← usableQuoteId (fresh 6) setting.requote payment fxQuoteId
    let conversion ← WalletsService.depositWithConversionWithin fresh payment.walletId
      ⟨quoteId, reference, description⟩ into
    pure (conversion.targetLeg.id, ⟨conversion.quote.targetAmount, conversion.quote.targetCurrency⟩)
  | none => do
    let posted ← WalletsService.depositWithin fresh payment.walletId
      ⟨payment.amount, reference, description⟩ into
    pure (posted.transaction.id, ⟨payment.amount, payment.currency⟩)

/-- The fee locked at initialisation, never more than was credited. -/
def feeOf (transaction : Transaction) (credited : Money) : Int :=
  if transaction.feeAmount < credited.amount then transaction.feeAmount else credited.amount

/-- The fee leaves the balance the credit went to. -/
def collectFee (fresh : Fresh) (payment : Payment) (transaction : Transaction) (fee : Int)
    (into : WalletBalance) : DbTxn Unit := do
  if fee > 0 then
    let _ ← WalletsService.collectFeeWithin (fun n => fresh (n + 7)) payment.walletId into
      ⟨fee, s!"fee:payment:{transaction.reference}", s!"Fee for payment {transaction.reference}"⟩
    pure ()
  else pure ()

def paymentEvent (payment : Payment) (transaction : Transaction) : PaymentEvent :=
  ⟨transaction.id, transaction.reference, payment.id, payment.owner⟩

/-- What follows once the transaction is locked and open. -/
def creditOpen (fresh : Fresh) (setting : Setting) (payment : Payment) (transaction : Transaction) :
    DbTxn SettlementOutcome := do
  let into := if setting.holdMs > 0 then WalletBalance.pending else .available
  let now ← Txn.query (·.clock)
  let fundsAvailableAt := now + setting.holdMs
  let (ledgerTransactionId, credited) ← creditWallet fresh setting payment transaction into
  let completedAt ← Txn.query (·.clock)
  let _ ← TransactionsService.transition transaction.id .successful {
    ledgerTransactionId := some ledgerTransactionId
    providerReference := payment.providerReference
    completedAt := some completedAt }
  let fee := feeOf transaction credited
  collectFee fresh payment transaction fee into
  PaymentsService.update payment.id fun row => { row with
    pendingAmount := if setting.holdMs > 0 then credited.amount - fee else 0
    fundsAvailableAt := some fundsAvailableAt }
  OutboxService.add ⟨transaction.id, .paymentSuccessful (paymentEvent payment transaction)
    payment.walletId ⟨payment.amount, payment.currency⟩ credited ⟨fee, credited.currency⟩
    fundsAvailableAt⟩
  pure .credited

/-- Status change, wallet credit and ledger postings commit together. -/
def credit (fresh : Fresh) (setting : Setting) (payment : Payment) : DbTxn SettlementOutcome :=
  inTransaction do
    let transaction ← TransactionsService.lockWithin payment.transactionId
    if transaction.status = .successful then pure .alreadySettled
    else if ¬ OPEN_STATUSES.contains transaction.status then pure .ignored
    else creditOpen fresh setting payment transaction

/-- `failureReason.slice(0, 500)` -/
def failureReasonOf (reason : String) : String := String.ofList (reason.toList.take 500)

def fail (payment : Payment) (failureCode failureReason : String) : DbTxn SettlementOutcome :=
  inTransaction do
    let transaction ← TransactionsService.lockWithin payment.transactionId
    if ¬ OPEN_STATUSES.contains transaction.status then
      pure (if transaction.status = .successful then .alreadySettled else .failed)
    else
      let _ ← TransactionsService.transition transaction.id .failed {
        failureCode := some failureCode
        failureReason := some (failureReasonOf failureReason)
        providerReference := payment.providerReference }
      OutboxService.add
        ⟨transaction.id, .paymentFailed (paymentEvent payment transaction) failureCode⟩
      pure .failed

end PaymentSettlementService

/-! ## The end of a settlement hold -/

namespace SettlementReleaseService

def settlementMovement (payment : Payment) : MoneyMovement :=
  ⟨payment.pendingAmount, s!"settlement:{uuidText payment.id}",
    s!"Settlement of payment {uuidText payment.id}"⟩

/-- The payment row lock serialises this with refunds and concurrent releases. -/
def release (id paymentId : Uuid) (early : Bool) : DbTxn Bool := inTransaction do
  let payment ← PaymentsService.lockWithin paymentId
  if payment.pendingAmount = 0 then pure false
  else
    let _ ← WalletsService.makeAvailableWithin id payment.walletId (settlementMovement payment)
    let now ← Txn.query (·.clock)
    let fundsAvailableAt := match payment.fundsAvailableAt with
      | some date => if date < now then date else now
      | none => now
    PaymentsService.update payment.id fun row => { row with
      pendingAmount := 0
      fundsAvailableAt := some fundsAvailableAt }
    OutboxService.add ⟨payment.transactionId,
      .fundsAvailable payment.id payment.walletId payment.owner payment.pendingAmount early⟩
    pure true

end SettlementReleaseService

end Finstack.Services
