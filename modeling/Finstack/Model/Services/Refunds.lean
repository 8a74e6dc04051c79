import Finstack.Model.Refunds.Requests
import Finstack.Model.Services.Payments

/-! # Refunds

The hold of a refund and what settles it; its submission to the provider, which comes between, is
not part of this.
-/

namespace Finstack.Services

open Foundation

namespace RefundsService

open RefundCourse (paymentAlreadyRefundedException paymentNotRefundableException
  refundExceedsRemainingException)

def refundNotFoundException : Err :=
  .app ⟨"REFUND_NOT_FOUND", "Refund not found", HttpStatus.notFound⟩

structure RefundView where
  refund : Refund
  transaction : Transaction

def view (refundId : Uuid) : DbTxn RefundView := do
  let read ← Txn.queryCommitted fun db => db.refunds.find? refundId
  let found ← orThrow refundNotFoundException read
  let transaction ← TransactionsService.getById .dataSource found.transactionId
  let again ← Txn.queryCommitted fun db => db.refunds.find? refundId
  let refund ← orFail "Refund" again
  pure ⟨refund, transaction⟩

/-! ## The hold -/

/-- The amounts of a payment's refunds whose transactions have one of these statuses. -/
def totalOf (statuses : List TransactionStatus) (paymentId : Uuid) (db : Db) : Int :=
  ((db.refunds.rows.filter fun refund => refund.paymentId = paymentId &&
    (db.transactions.find? refund.transactionId).any fun transaction =>
      statuses.contains transaction.status).map (·.amount)).sum

/-- Refunds that are processing or successful count against the payment. -/
def committedAmount (paymentId : Uuid) : DbTxn Int :=
  Txn.query (totalOf [.processing, .successful] paymentId)

/-- The share of the conversion; without one the wallet gives what the customer gets back. -/
def reversal (payment : Payment) (refundedBefore amount : Int) : DbTxn ConversionReversal :=
  match payment.fxQuoteId with
  | none => pure ⟨amount, 0, amount⟩
  | some fxQuoteId => do
    let quote ← FxService.getQuoteWithin fxQuoteId
    Prog.ret (reverseConversion ⟨quote.sourceAmount, quote.targetAmount, quote.grossTargetAmount⟩
      refundedBefore amount)

structure RefundInput where
  amount : Option Int
  reason : String

/-- What is generated for a request. -/
structure Generated where
  fresh : Fresh
  transaction : Nat
  refund : Nat

/-- `rfd_${randomBytes(10).toString('hex')}` -/
def generateReference (random : Nat) : String := "rfd_" ++ String.ofList (hexDigits 20 random)

def newTransaction (payment : Payment) (wallet : Wallet) (walletDebit : Int) :
    TransactionsService.NewTransaction where
  type := .refund
  status := .processing
  owner := payment.owner
  sourceWalletId := some wallet.id
  amount := walletDebit
  currency := wallet.currency

/-- The part of a hold that comes out of the payment's pending credit, which funds it first. -/
def fromPending (payment : Payment) (walletDebit : Int) : Int :=
  if payment.pendingAmount < walletDebit then payment.pendingAmount else walletDebit

def holdMovement (reference : String) (walletDebit : Int) : MoneyMovement :=
  ⟨walletDebit, s!"refund-hold:{reference}", s!"Hold for refund {reference}"⟩

def newRefund (id transactionId adminId : Uuid) (reference : String) (payment : Payment)
    (wallet : Wallet) (amount : Int) (reversal : ConversionReversal) (reason : String)
    (idempotencyKey : String) (createdAt : Nat) : Refund where
  id := id
  reference := reference
  paymentId := payment.id
  transactionId := transactionId
  amount := amount
  currency := payment.currency
  walletId := wallet.id
  walletDebitAmount := reversal.walletDebit
  walletCurrency := wallet.currency
  pendingHoldAmount := fromPending payment reversal.walletDebit
  revenueReversal := reversal.revenueReversal
  grossReversal := reversal.grossReversal
  provider := payment.provider
  reason := reason
  requestedByUserId := adminId
  idempotencyKey := idempotencyKey
  createdAt := createdAt

/-- The transaction, the hold and the refund of this share of the payment. -/
def placeHold (generated : Generated) (adminId : Uuid) (payment : Payment) (wallet : Wallet)
    (amount : Int) (reversal : ConversionReversal) (reason idempotencyKey : String) :
    DbTxn Refund := do
  let reference := generateReference generated.refund
  let transaction ← TransactionsService.create (generated.fresh 0) generated.transaction
    (newTransaction payment wallet reversal.walletDebit)
  let taken := fromPending payment reversal.walletDebit
  let _ ← WalletsService.reserveSplitWithin (generated.fresh 1) wallet.id
    (holdMovement reference reversal.walletDebit) taken
  if taken > 0 then
    PaymentsService.setHeldAmountWithin payment.id (payment.pendingAmount - taken)
  else pure ()
  let now ← Txn.query (·.clock)
  let refund := newRefund (generated.fresh 2) transaction.id adminId reference payment wallet amount
    reversal reason idempotencyKey now
  save (Db.refundLocks refund) (Db.checkNewRefund refund) (Db.onRefunds (·.insert refund))
  pure refund

def createWithHold (generated : Generated) (adminId paymentId : Uuid) (input : RefundInput)
    (idempotencyKey : String) : DbTxn Refund := do
  let payment ← PaymentsService.lockWithin paymentId
  let paymentTransaction ← TransactionsService.getById .transaction payment.transactionId
  if paymentTransaction.status = .reversed then Txn.throw paymentAlreadyRefundedException
  else if paymentTransaction.status ≠ .successful then
    Txn.throw (paymentNotRefundableException paymentTransaction.status.text)
  else
    let refundedBefore ← committedAmount payment.id
    let remaining := payment.amount - refundedBefore
    let amount := input.amount.getD remaining
    if amount ≤ 0 ∨ amount > remaining then
      Txn.throw (refundExceedsRemainingException remaining payment.currency)
    else
      let wallet ← WalletsService.getWallet payment.walletId
      let share ← reversal payment refundedBefore amount
      placeHold generated adminId payment wallet amount share input.reason idempotencyKey

/-- A concurrent request with the same key committed first: its refund is the answer. -/
def recover (adminId : Uuid) (idempotencyKey : String) (error : Err) : DbTxn RefundView := do
  if isUniqueViolation error ["uq_refunds_requested_by_idempotency_key"] then
    let winner ← Txn.queryCommitted fun db => db.findRefundByIdempotencyKey adminId idempotencyKey
    match winner with
    | some winner => view winner.id
    | none => Txn.throw error
  else Txn.throw error

/-- A new refund, up to its hold: its submission is not part of this. -/
def requestNew (generated : Generated) (adminId paymentId : Uuid) (input : RefundInput)
    (idempotencyKey : String) : DbTxn RefundView := do
  let outcome ← Txn.tryCatch (do
    let refund ← inTransaction (createWithHold generated adminId paymentId input idempotencyKey)
    pure (Sum.inl refund)) fun error => do
      let winner ← recover adminId idempotencyKey error
      pure (Sum.inr winner)
  match outcome with
  | .inl refund => view refund.id
  | .inr winner => pure winner

/-- Idempotent by key, per administrator. -/
def request (generated : Generated) (adminId paymentId : Uuid) (input : RefundInput)
    (idempotencyKey : String) : DbTxn RefundView := do
  let existing ← Txn.queryCommitted fun db => db.findRefundByIdempotencyKey adminId idempotencyKey
  match existing with
  | some existing => view existing.id
  | none => requestNew generated adminId paymentId input idempotencyKey

/-! ## The end -/

/-- The platform's accounts that the refund of a converted payment goes through. -/
structure FxAccounts where
  walletPosition : Uuid
  walletRevenue : Uuid
  chargedPosition : Uuid
  chargedClearing : Uuid

/-- Present only for refunds of converted payments. -/
def fxAccounts (fresh : Fresh) (refund : Refund) : DbTxn (Option FxAccounts) := do
  if refund.currency = refund.walletCurrency then pure none
  else
    let walletPosition ← LedgerService.ensureSystemAccount (fresh 0)
      (SystemAccounts.fxPosition refund.walletCurrency)
    let walletRevenue ← LedgerService.ensureSystemAccount (fresh 1)
      (SystemAccounts.fxRevenue refund.walletCurrency)
    let chargedPosition ← LedgerService.ensureSystemAccount (fresh 2)
      (SystemAccounts.fxPosition refund.currency)
    let chargedClearing ← LedgerService.ensureSystemAccount (fresh 3)
      (SystemAccounts.externalClearing refund.currency)
    pure (some ⟨walletPosition.id, walletRevenue.id, chargedPosition.id, chargedClearing.id⟩)

/-- The held funds leave the wallet. -/
def walletLeg (refund : Refund) (wallet : Wallet) (clearing : Uuid) (fx : Option FxAccounts) :
    PostingInput where
  reference := s!"refund:{refund.reference}"
  description := s!"Refund {refund.reference}"
  currency := refund.walletCurrency
  entries := ⟨wallet.reservedAccountId, .debit, refund.walletDebitAmount⟩ ::
    match fx with
    | some fx =>
      (if refund.revenueReversal > 0 then [⟨fx.walletRevenue, .debit, refund.revenueReversal⟩]
        else []) ++ [⟨fx.walletPosition, .credit, refund.grossReversal⟩]
    | none => [⟨clearing, .credit, refund.walletDebitAmount⟩]

/-- The original amount goes back out through the provider. -/
def chargedLeg (refund : Refund) (fx : FxAccounts) : PostingInput where
  reference := s!"refund:{refund.reference}:fx-source"
  description := s!"Refund {refund.reference} ({refund.currency} leg)"
  currency := refund.currency
  entries := [⟨fx.chargedPosition, .debit, refund.amount⟩,
    ⟨fx.chargedClearing, .credit, refund.amount⟩]

def markPaymentReversedIfFullyRefunded (paymentId : Uuid) : DbTxn Unit := do
  let payment ← PaymentsService.getById .transaction paymentId
  let total ← Txn.query (totalOf [.successful] paymentId)
  if total = payment.amount then
    let _ ← TransactionsService.transition payment.transactionId .reversed
    pure ()
  else pure ()

def eventOf (refund : Refund) (transaction : Transaction) : RefundEvent :=
  ⟨refund.id, refund.reference, refund.paymentId, transaction.owner⟩

/-- The refund as it is committed. -/
def findRefund (refundId : Uuid) : DbTxn Refund := do
  let found ← Txn.queryCommitted fun db => db.refunds.find? refundId
  orFail "Refund" found

def postCharged (id : Uuid) (refund : Refund) (fx : Option FxAccounts) : DbTxn Unit :=
  match fx with
  | some fx => do
    let _ ← LedgerService.postWithin id (chargedLeg refund fx)
    pure ()
  | none => pure ()

def completeOpen (fresh : Fresh) (refund : Refund) (clearing : Uuid) (fx : Option FxAccounts)
    (transaction : Transaction) : DbTxn Unit := do
  let wallet ← WalletsService.getWallet refund.walletId
  let leg ← LedgerService.postWithin (fresh 0) (walletLeg refund wallet clearing fx)
  postCharged (fresh 1) refund fx
  let now ← Txn.query (·.clock)
  let _ ← TransactionsService.transition transaction.id .successful {
    ledgerTransactionId := some leg.transaction.id
    providerReference := refund.providerRefundReference
    completedAt := some now }
  markPaymentReversedIfFullyRefunded refund.paymentId
  OutboxService.add ⟨transaction.id, .refundSuccessful (eventOf refund transaction)
    ⟨refund.amount, refund.currency⟩ ⟨refund.walletDebitAmount, refund.walletCurrency⟩⟩

/-- The provider has refunded it. -/
def complete (fresh : Fresh) (refundId : Uuid) : DbTxn Unit := do
  let refund ← findRefund refundId
  let clearing ← WalletsService.clearingAccount (fresh 0) refund.walletCurrency
  let fx ← fxAccounts (fun n => fresh (n + 1)) refund
  inTransaction do
    let transaction ← TransactionsService.lockWithin refund.transactionId
    if transaction.status ≠ .processing then pure ()
    else completeOpen (fun n => fresh (n + 5)) refund clearing.id fx transaction

/-- How much of a failed refund's hold goes back to pending: the part taken from the payment's
settlement hold, if that hold hasn't ended yet. -/
def returnToPending (refund : Refund) : DbTxn Int := do
  if refund.pendingHoldAmount = 0 then pure 0
  else
    let payment ← PaymentsService.lockWithin refund.paymentId
    let now ← Txn.query (·.clock)
    if payment.pendingAmount > 0 ∨ payment.fundsAvailableAt.any (now < ·) then
      PaymentsService.setHeldAmountWithin payment.id
        (payment.pendingAmount + refund.pendingHoldAmount)
      pure refund.pendingHoldAmount
    else pure 0

def releaseMovement (refund : Refund) : MoneyMovement :=
  ⟨refund.walletDebitAmount, s!"refund-release:{refund.reference}",
    s!"Release hold for failed refund {refund.reference}"⟩

/-- The provider has not refunded it: the hold is released. -/
def fail (id refundId : Uuid) (failureCode failureReason : String) : DbTxn Unit := do
  let refund ← findRefund refundId
  inTransaction do
    let transaction ← TransactionsService.lockWithin refund.transactionId
    if transaction.status ≠ .processing then pure ()
    else
      let toPending ← returnToPending refund
      let _ ← WalletsService.releaseSplitWithin id refund.walletId (releaseMovement refund) toPending
      let _ ← TransactionsService.transition transaction.id .failed {
        failureCode := some failureCode
        failureReason := some (String.ofList (failureReason.toList.take 500)) }
      OutboxService.add ⟨transaction.id, .refundFailed (eventOf refund transaction) failureCode⟩

end RefundsService

end Finstack.Services
