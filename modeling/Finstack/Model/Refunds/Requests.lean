import Finstack.Model.Ledger.Service
import Finstack.Model.Refunds.Course
import Finstack.Model.Wallets.Movements

/-! # Requesting a refund

`createWithHold` on a payment and a wallet that are locked: what it reads is given, and it returns
what it writes or the first error of its checks and of the tables' CHECK constraints. The rows of the
payment, its quote and the wallet's accounts carry the constraints they were saved under.
-/

namespace Finstack.RefundRequests

open LedgerService RefundCourse

/-- A payment with the quote its credit used. -/
structure CreditedPayment where
  payment : Payment
  quote : Option FxQuote
  /-- The foreign key. -/
  quoted : payment.fxQuoteId.isSome = quote.isSome
  /-- A quote is made, and made again, for the payment's amount. -/
  charged : ∀ q ∈ quote, q.sourceAmount = payment.amount
  /-- `chk_fx_quotes_amounts_positive` -/
  positive : ∀ q ∈ quote, 0 < q.sourceAmount ∧ 0 < q.targetAmount
  /-- `chk_fx_quotes_target_within_gross` -/
  within : ∀ q ∈ quote, q.targetAmount ≤ q.grossTargetAmount
  /-- `chk_payments_pending_amount` -/
  pending : 0 ≤ payment.pendingAmount

/-- A wallet with its ledger accounts. -/
structure FundedWallet where
  wallet : Wallet
  available : LedgerAccount
  pending : LedgerAccount
  reserved : LedgerAccount
  /-- The foreign keys, to accounts of its own. -/
  ids : available.id = wallet.availableAccountId ∧ pending.id = wallet.pendingAccountId ∧
    reserved.id = wallet.reservedAccountId
  distinct : wallet.availableAccountId ≠ wallet.pendingAccountId ∧
    wallet.availableAccountId ≠ wallet.reservedAccountId ∧
    wallet.pendingAccountId ≠ wallet.reservedAccountId
  /-- Liabilities in the wallet's currency. -/
  liabilities : ∀ account ∈ [available, pending, reserved],
    account.normalBalance = .credit ∧ account.currency = wallet.currency ∧ 0 ≤ account.balance
  currency : isSupportedCurrency wallet.currency = true

def FundedWallet.accounts (funded : FundedWallet) : List LedgerAccount :=
  [funded.available, funded.pending, funded.reserved]

def walletNotActiveException : Err :=
  .app ⟨"WALLET_NOT_ACTIVE", "The wallet is frozen or closed and cannot move money",
    HttpStatus.unprocessableEntity⟩

/-- The share of the conversion; without one the wallet gives what the customer gets back. -/
def reversal (credited : CreditedPayment) (refundedBefore amount : Int) :
    Except Err ConversionReversal :=
  match credited.quote with
  | none => .ok ⟨amount, 0, amount⟩
  | some quote =>
    reverseConversion ⟨quote.sourceAmount, quote.targetAmount, quote.grossTargetAmount⟩
      refundedBefore amount

/-- `reserveSplitWithin` on the wallet's locked accounts: the posting, once it passes the checks of
the ledger. -/
def reserveSplitWithin (funded : FundedWallet) (movement : MoneyMovement) (fromPending : Int) :
    Except Err PostingInput := do
  if funded.wallet.status ≠ .active then throw walletNotActiveException
  let input := WalletsService.reserveSplitWithin funded.wallet movement fromPending
  let _ ← validatePosting input
  let accounts := funded.accounts.filter fun account =>
    input.entries.any fun entry => entry.accountId = account.id
  assertCurrency accounts input.currency
  assertSufficientFunds accounts input
  return input

/-- The CHECK constraints of `refunds`. -/
def checkRefund (refund : Refund) : Except Err Unit :=
  if ¬ (0 < refund.amount ∧ 0 < refund.walletDebitAmount) then
    .error (.database (.checkViolation "chk_refunds_amounts_positive"))
  else if ¬ (0 ≤ refund.revenueReversal ∧
      refund.grossReversal = refund.walletDebitAmount + refund.revenueReversal) then
    .error (.database (.checkViolation "chk_refunds_fx_reversal"))
  else .ok ()

/-- The input of a request, with what is generated for it. -/
structure Request where
  adminId : Uuid
  amount : Option Int
  reason : String
  idempotencyKey : String
  refundId : Uuid
  transactionId : Uuid
  /-- Ten random bytes. -/
  random : Nat
  now : Nat

/-- `rfd_${randomBytes(10).toString('hex')}` -/
def Request.reference (request : Request) : String :=
  "rfd_" ++ String.ofList (hexDigits 20 request.random)

/-- What a request writes. -/
structure Hold where
  /-- The refund's transaction carries the wallet debit. -/
  transactionAmount : Int
  posting : PostingInput
  /-- What is left of the payment's credit in the pending balance. -/
  pendingAmount : Int
  refund : Refund

/-- The part of a hold that comes out of the payment's pending credit, which funds it first. -/
def fromPending (credited : CreditedPayment) (walletDebit : Int) : Int :=
  if credited.payment.pendingAmount < walletDebit then credited.payment.pendingAmount
  else walletDebit

def newRefund (payment : Payment) (wallet : Wallet) (request : Request) (amount fromPending : Int)
    (reversal : ConversionReversal) : Refund where
  id := request.refundId
  reference := request.reference
  paymentId := payment.id
  transactionId := request.transactionId
  amount
  currency := payment.currency
  walletId := wallet.id
  walletDebitAmount := reversal.walletDebit
  walletCurrency := wallet.currency
  pendingHoldAmount := fromPending
  revenueReversal := reversal.revenueReversal
  grossReversal := reversal.grossReversal
  provider := payment.provider
  reason := request.reason
  requestedByUserId := request.adminId
  idempotencyKey := request.idempotencyKey
  createdAt := request.now

def holdMovement (request : Request) (walletDebit : Int) : MoneyMovement where
  amount := walletDebit
  reference := "refund-hold:" ++ request.reference
  description := "Hold for refund " ++ request.reference

/-- The transaction, the hold and the row of a refund. -/
def placeHold (credited : CreditedPayment) (funded : FundedWallet) (request : Request)
    (amount : Int) (reversal : ConversionReversal) : Except Err Hold := do
  if reversal.walletDebit ≤ 0 then
    throw (.database (.checkViolation "chk_transactions_amount_positive"))
  let fromPending := fromPending credited reversal.walletDebit
  let posting ← reserveSplitWithin funded (holdMovement request reversal.walletDebit) fromPending
  let refund := newRefund credited.payment funded.wallet request amount fromPending reversal
  checkRefund refund
  return ⟨reversal.walletDebit, posting, credited.payment.pendingAmount - fromPending, refund⟩

def createWithHold (credited : CreditedPayment) (status : TransactionStatus)
    (refunds : List Share) (funded : FundedWallet) (request : Request) : Except Err Hold := do
  let payment := credited.payment
  if status = .reversed then throw paymentAlreadyRefundedException
  if status ≠ .successful then throw (paymentNotRefundableException status.text)
  let refundedBefore := committedAmount refunds
  let remaining := payment.amount - refundedBefore
  let amount := request.amount.getD remaining
  if amount ≤ 0 ∨ amount > remaining then
    throw (refundExceedsRemainingException remaining payment.currency)
  let reversal ← reversal credited refundedBefore amount
  placeHold credited funded request amount reversal

end Finstack.RefundRequests
