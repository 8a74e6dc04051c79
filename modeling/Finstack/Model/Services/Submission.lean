import Finstack.Model.Services.Checkout
import Finstack.Model.Services.Refunds

/-! # Dealings with the providers

What is sent to a provider, and what becomes of its answers: the settlement of a payment that was
verified, the submission of payouts and of refunds, and the sweeps that go through all of them. What a
provider answers is an argument. Audit logs are left out.
-/

namespace Finstack

open Foundation

namespace Db

/-- An update that sets the provider's reference of a refund. -/
def checkProviderRefundReference (id : Uuid) (reference : String) (db : Db) :
    Except DatabaseError Unit :=
  match db.refunds.find? id with
  | some row =>
    if db.refunds.rows.any fun other => other.id ≠ id && other.provider = row.provider &&
        other.providerRefundReference = some reference then
      .error (.uniqueViolation "uq_refunds_provider_reference")
    else .ok ()
  | none => .ok ()

end Db

namespace Services

open PaymentProviders (Thrown isRejection ProviderPaymentStatus ProviderPayoutStatus)
open PaymentsService (messageOf)

/-! ## What providers answer -/

structure VerifyPaymentResult where
  status : ProviderPaymentStatus
  /-- What the provider actually collected, in minor units. -/
  amount : Int
  currency : String
  failureReason : Option String
deriving DecidableEq, Repr

structure RefundPaymentResult where
  providerRefundReference : String
  status : ProviderPaymentStatus
deriving DecidableEq, Repr

structure PayoutResult where
  providerReference : String
  status : ProviderPayoutStatus
  failureReason : Option String
deriving DecidableEq, Repr

/-- A provider that payments go through. -/
structure ProviderClient where
  verifyPayment : (reference providerReference : String) → Except Thrown VerifyPaymentResult
  refundPayment : (providerReference : String) → Money → (reference : String) →
    Except Thrown RefundPaymentResult
  getRefund : (providerRefundReference : String) → Except Thrown RefundPaymentResult
  findRefund : (providerReference reference : String) → Except Thrown (Option RefundPaymentResult)

/-- A provider that sends money out. -/
structure PayoutCapability where
  initiate : Payout → PayoutDestination → Except Thrown PayoutResult
  find : (reference : String) → (providerReference : Option String) →
    Except Thrown (Option PayoutResult)

/-- The enabled providers. -/
structure Providers where
  get : String → Except Err ProviderClient
  payoutsOf : String → Except Err PayoutCapability

/-- A text that is there and not empty. -/
def given (text : Option String) : Option String := text.filter (· ≠ "")

/-- `for … of …`, which the first error ends; each turn has its number. -/
def forEach {α : Type} (body : Nat → α → DbTxn Unit) : Nat → List α → DbTxn Unit
  | _, [] => pure ()
  | n, a :: rest => do
    body n a
    forEach body (n + 1) rest

/-! ## Payments -/

namespace PaymentsService

def getOwned (owner : Owner) (paymentId : Uuid) : DbTxn PaymentView := do
  let found ← Txn.queryCommitted fun db =>
    (db.payments.find? paymentId).filter fun payment => payment.owner = owner
  let payment ← orThrow paymentNotFoundException found
  view payment

end PaymentsService

namespace PaymentSettlementService

/-- `verifyPayment`; what else is thrown on the way counts as an outage. -/
def verifyPayment (providers : Providers) (payment : Payment) (providerReference : String) :
    DbTxn (Except Thrown VerifyPaymentResult) :=
  Txn.tryCatch (do
      let transaction ← TransactionsService.getById .dataSource payment.transactionId
      let provider ← Prog.ret (providers.get payment.provider)
      pure (provider.verifyPayment transaction.reference providerReference))
    fun _ => Txn.throw PaymentsService.paymentProviderUnavailableException

def mismatchReason (verified : VerifyPaymentResult) (payment : Payment) : String :=
  s!"Provider collected {verified.amount} {verified.currency}; " ++
    s!"expected {payment.amount} {payment.currency}"

/-- What the provider collected is credited, if it is what was asked for. -/
def settleVerified (fresh : Fresh) (setting : Setting) (payment : Payment)
    (verified : VerifyPaymentResult) : DbTxn SettlementOutcome :=
  match verified.status with
  | .pending => pure .stillPending
  | .failed => fail payment "PAYMENT_FAILED" (verified.failureReason.getD "Payment failed")
  | .successful =>
    if verified.amount ≠ payment.amount ∨ verified.currency ≠ payment.currency then do
      let outcome ← fail payment "AMOUNT_MISMATCH" (mismatchReason verified payment)
      pure (if outcome = .failed then .amountMismatch else outcome)
    else credit fresh setting payment

/-- Asks the provider for the authoritative state, then settles accordingly. -/
def settle (fresh : Fresh) (setting : Setting) (providers : Providers) (payment : Payment) :
    DbTxn SettlementOutcome :=
  match given payment.providerReference with
  | none => pure .stillPending
  | some providerReference => do
    match ← verifyPayment providers payment providerReference with
    | .error thrown =>
      if isRejection thrown then pure .ignored
      else Txn.throw PaymentsService.paymentProviderUnavailableException
    | .ok verified => settleVerified fresh setting payment verified

/-- The customer or the organisation asks for it. -/
def verify (fresh : Fresh) (setting : Setting) (providers : Providers) (owner : Owner)
    (paymentId : Uuid) : DbTxn PaymentsService.PaymentView := do
  let before ← PaymentsService.getOwned owner paymentId
  let _ ← settle fresh setting providers before.payment
  PaymentsService.getOwned owner paymentId

/-- A webhook names the payment by the provider's reference. -/
def settleFromWebhook (fresh : Fresh) (setting : Setting) (providers : Providers)
    (provider providerReference : String) : DbTxn (Option SettlementOutcome) := do
  let found ← Txn.queryCommitted fun db => db.payments.rows.find? fun payment =>
    payment.provider = provider && payment.providerReference = some providerReference
  match found with
  | some payment => do
    let outcome ← settle fresh setting providers payment
    pure (some outcome)
  | none => pure none

end PaymentSettlementService

namespace SettlementReleaseService

def dueAt (now : Nat) (payment : Payment) : Bool :=
  decide (payment.pendingAmount > 0) && payment.fundsAvailableAt.any (· ≤ now)

/-- The payments whose hold has ended, the earliest first. -/
def due (limit : Nat) (db : Db) : List Payment :=
  ((db.payments.rows.filter (dueAt db.clock)).mergeSort fun payment other =>
    payment.fundsAvailableAt.getD 0 ≤ other.fundsAvailableAt.getD 0).take limit

def releaseDue (fresh : Fresh) (limit : Nat) : DbTxn Unit := do
  let found ← Txn.queryCommitted (due limit)
  forEach (fun n payment => do
    let _ ← release (fresh n) payment.id false
    pure ()) 0 found

/-- Ends a payment's hold now. -/
def releaseEarly (id paymentId : Uuid) : DbTxn Payment := do
  let _ ← release id paymentId true
  PaymentsService.getById .dataSource paymentId

end SettlementReleaseService

/-! ## Payouts -/

/-- Nothing was sent within `RESUBMIT_AFTER_MS`. -/
def claimable (resubmitAfterMs now : Nat) (submittedAt : Option Nat) : Bool :=
  submittedAt.all fun time => time + resubmitAfterMs < now

namespace PayoutsService

open PayoutSubmission (RESUBMIT_AFTER_MS)

/-- Marks the payout as sent, unless another submission is in flight. -/
def claimSubmission (payoutId : Uuid) : DbTxn Bool :=
  Txn.separately [.payout payoutId] fun db =>
    if (db.payouts.find? payoutId).any fun row =>
        claimable RESUBMIT_AFTER_MS db.clock row.submittedAt then
      .ok (true, Db.onPayouts (·.modify payoutId fun row => { row with submittedAt := some db.clock }))
    else .ok (false, id)

def setProviderReference (payoutId : Uuid) (reference : String) : DbTxn Unit :=
  Txn.separately [.payout payoutId] fun _ =>
    .ok ((), Db.onPayouts (·.modify payoutId fun row =>
      { row with providerReference := some reference }))

/-- `find`, if it was sent before; without a result it is sent now, unless somebody else does. -/
def ask (payouts : PayoutCapability) (sent : PayoutView) :
    DbTxn (Except Thrown (Option PayoutResult)) :=
  let earlier := if sent.payout.submittedAt.isSome then
    payouts.find sent.payout.reference sent.payout.providerReference else .ok none
  match earlier with
  | .error thrown => pure (.error thrown)
  | .ok (some result) => pure (.ok (some result))
  | .ok none =>
    if sent.transaction.status = .processing then do
      let claimed ← claimSubmission sent.payout.id
      if claimed then pure (some <$> payouts.initiate sent.payout sent.destination)
      else pure (.ok none)
    else pure (.ok none)

/-- The provider's reference is stored when it is new. -/
def withReference (payout : Payout) (result : PayoutResult) : DbTxn Payout :=
  if some result.providerReference ≠ payout.providerReference then do
    setProviderReference payout.id result.providerReference
    pure { payout with providerReference := some result.providerReference }
  else pure payout

def settle (fresh : Fresh) (payout : Payout) (result : PayoutResult) : DbTxn Unit :=
  match result.status with
  | .successful => complete fresh payout
  | .failed => fail (fresh 0) payout "PAYOUT_FAILED"
      (result.failureReason.getD "The provider reported the payout as failed")
  | .reversed => do
    -- still processing: the hold is released; already successful: the wallet is credited back
    fail (fresh 0) payout "PAYOUT_REVERSED" "The provider reversed the payout"
    reverse (fun n => fresh (n + 1)) payout
  | .pending => pure ()

/-- Sends the payout, or finds out what happened to it. -/
def submit (fresh : Fresh) (providers : Providers) (payoutId : Uuid) : DbTxn Unit := do
  let sent ← view payoutId
  if sent.transaction.status ≠ .processing ∧ sent.transaction.status ≠ .successful then pure ()
  else
    let payouts ← Prog.ret (providers.payoutsOf sent.payout.provider)
    match ← ask payouts sent with
    | .error thrown =>
      if isRejection thrown ∧ sent.payout.submittedAt = none then
        fail (fresh 0) sent.payout "PROVIDER_REJECTED" (messageOf thrown)
      else pure ()
    | .ok none => pure ()
    | .ok (some result) => do
      let payout ← withReference sent.payout result
      settle fresh payout result

/-- Re-checks a payout with its provider. -/
def sync (fresh : Fresh) (providers : Providers) (payoutId : Uuid) : DbTxn PayoutView := do
  submit fresh providers payoutId
  view payoutId

/-- The payload of a webhook is only a hint to re-check. -/
def syncFromWebhook (fresh : Fresh) (providers : Providers) (provider reference : String) :
    DbTxn Bool := do
  let found ← Txn.queryCommitted fun db => db.payouts.rows.find? fun payout =>
    payout.provider = provider && payout.reference = reference
  match found with
  | some payout => do
    submit fresh providers payout.id
    pure true
  | none => pure false

/-- Payouts still processing, the oldest first. -/
def stale (olderThanMs limit : Nat) (db : Db) : List Payout :=
  ((db.payouts.rows.filter fun payout =>
      (db.transactions.find? payout.transactionId).any (·.status = .processing) &&
        decide (payout.createdAt + olderThanMs < db.clock)).mergeSort fun payout other =>
    payout.createdAt ≤ other.createdAt).take limit

def syncStale (fresh : Nat → Fresh) (providers : Providers) (olderThanMs limit : Nat) :
    DbTxn Unit := do
  let found ← Txn.queryCommitted (stale olderThanMs limit)
  forEach (fun n payout => submit (fresh n) providers payout.id) 0 found

def requestNewSubmitted (generated : Generated) (providers : Providers) (owner : Owner)
    (input : RequestPayoutInput) (idempotencyKey : String) : DbTxn PayoutView := do
  let destination ← getActive owner input.destinationId
  let now ← Txn.queryCommitted (·.clock)
  if now < destination.payoutsAvailableAt then
    Txn.throw (payoutDestinationCoolingOffException destination.payoutsAvailableAt)
  else
    let wallet ← sourceWallet owner destination input.walletId
    -- fails fast if the provider can no longer pay out
    let _ ← Prog.ret (providers.payoutsOf destination.provider)
    let fee ← FeesService.quote .payout wallet.currency input.amount (ownerOrganizationId owner)
    let outcome ← Txn.tryCatch (do
      let payout ← inTransaction
        (createWithHold generated owner wallet destination input fee idempotencyKey)
      pure (Sum.inl payout)) fun error => do
        let winner ← recover owner idempotencyKey error
        pure (Sum.inr winner)
    match outcome with
    | .inl payout => do
      submit (fun n => generated.fresh (n + 3)) providers payout.id
      view payout.id
    | .inr winner => pure winner

/-- `request` in full: a new payout is submitted before it is answered. -/
def requestSubmitted (generated : Generated) (providers : Providers) (owner : Owner)
    (input : RequestPayoutInput) (idempotencyKey : String) : DbTxn PayoutView := do
  match ← TransactionsService.findByIdempotencyKey owner idempotencyKey with
  | some existing => viewByTransaction existing.id
  | none => requestNewSubmitted generated providers owner input idempotencyKey

end PayoutsService

/-! ## Refunds -/

namespace RefundsService

open RefundSubmission (RESUBMIT_AFTER_MS)

/-- Marks the refund as sent, unless it was sent moments ago. -/
def claimSubmission (refundId : Uuid) : DbTxn Bool :=
  Txn.separately [.refund refundId] fun db =>
    if (db.refunds.find? refundId).any fun row =>
        claimable RESUBMIT_AFTER_MS db.clock row.submittedAt then
      .ok (true, Db.onRefunds (·.modify refundId fun row => { row with submittedAt := some db.clock }))
    else .ok (false, id)

def setProviderReference (refundId : Uuid) (reference : String) : DbTxn Unit :=
  Txn.separately [.refund refundId] fun db =>
    databaseCheck (db.checkProviderRefundReference refundId reference)
      (Db.onRefunds (·.modify refundId fun row =>
        { row with providerRefundReference := some reference }))

/-- What the provider says of a refund that may have been sent. -/
def lookup (provider : ProviderClient) (payment : Payment) (refund : Refund) :
    Except Thrown (Option RefundPaymentResult) :=
  match given refund.providerRefundReference with
  | some reference => some <$> provider.getRefund reference
  | none =>
    if refund.submittedAt.isSome then
      provider.findRefund (payment.providerReference.getD "") refund.reference
    else .ok none

def settleAs (fresh : Fresh) (refundId : Uuid) : ProviderPaymentStatus → DbTxn Unit
  | .successful => complete fresh refundId
  | .failed => fail (fresh 0) refundId "REFUND_FAILED" "The provider reported the refund as failed"
  | .pending => pure ()

def settle (fresh : Fresh) (refund : Refund) (result : RefundPaymentResult) : DbTxn Unit := do
  if some result.providerRefundReference ≠ refund.providerRefundReference then
    setProviderReference refund.id result.providerRefundReference
  else pure ()
  settleAs fresh refund.id result.status

/-- A refund that the provider does not know of is sent, unless somebody has just done so. -/
def send (fresh : Fresh) (provider : ProviderClient) (payment : Payment) (refund : Refund) :
    DbTxn Unit := do
  let claimed ← claimSubmission refund.id
  if claimed then
    match provider.refundPayment (payment.providerReference.getD "") ⟨refund.amount, refund.currency⟩
        refund.reference with
    | .error thrown =>
      if isRejection thrown then fail (fresh 0) refund.id "PROVIDER_REJECTED" (messageOf thrown)
      else pure ()
    | .ok result => settle fresh refund result
  else pure ()

/-- Sends the refund, or finds out what happened to it. -/
def submit (fresh : Fresh) (providers : Providers) (refund : Refund) : DbTxn Unit := do
  let payment ← PaymentsService.getById .dataSource refund.paymentId
  let provider ← Prog.ret (providers.get refund.provider)
  match lookup provider payment refund with
  | .error _ => pure ()
  | .ok (some result) => settle fresh refund result
  | .ok none => send fresh provider payment refund

/-- Re-asks the provider about a refund still processing. -/
def retry (fresh : Fresh) (providers : Providers) (refundId : Uuid) : DbTxn RefundView := do
  let before ← view refundId
  if before.transaction.status = .processing then submit fresh providers before.refund
  else pure ()
  view refundId

def isProcessing (db : Db) (refund : Refund) : Bool :=
  (db.transactions.find? refund.transactionId).any (·.status = .processing)

/-- Refunds stuck in processing, the oldest first. -/
def stale (olderThanMs limit : Nat) (db : Db) : List Refund :=
  ((db.refunds.rows.filter fun refund => isProcessing db refund &&
      decide (refund.submittedAt.getD refund.createdAt + olderThanMs < db.clock)).mergeSort
    fun refund other => refund.createdAt ≤ other.createdAt).take limit

/-- One refund's error doesn't stop the others. -/
def syncStale (fresh : Nat → Fresh) (providers : Providers) (olderThanMs limit : Nat) :
    DbTxn Unit := do
  let found ← Txn.queryCommitted (stale olderThanMs limit)
  forEach (fun n refund => Txn.tryCatch (submit (fresh n) providers refund) fun _ => pure ()) 0 found

/-- The refunds a webhook is about: the reference is a refund's own, or the refunded payment's. -/
def matching (provider reference : String) (payment : Option Payment) (refund : Refund) : Bool :=
  refund.provider = provider &&
    (refund.reference = reference || payment.any fun payment => refund.paymentId = payment.id)

inductive WebhookSync where
  | synced
  | alreadyFinal
  | notFound
deriving DecidableEq, Repr

/-- The payment whose transaction has this reference. -/
def findByTransactionReference (reference : String) : DbTxn (Option Payment) := do
  match ← Txn.queryCommitted fun db => db.findTransactionByReference reference with
  | some transaction =>
    Txn.queryCommitted fun db => db.findPaymentByTransaction transaction.id
  | none => pure none

/-- Every matching processing refund is re-checked with the provider. -/
def syncFromWebhook (fresh : Nat → Fresh) (providers : Providers) (provider reference : String) :
    DbTxn WebhookSync := do
  let payment ← findByTransactionReference reference
  let candidates ← Txn.queryCommitted fun db =>
    db.refunds.rows.filter fun refund =>
      matching provider reference payment refund && isProcessing db refund
  forEach (fun n refund => submit (fresh n) providers refund) 0 candidates
  if candidates ≠ [] then pure .synced
  else
    let exists_ ← Txn.queryCommitted fun db =>
      db.refunds.rows.any (matching provider reference payment)
    pure (if exists_ then .alreadyFinal else .notFound)

def requestNewSubmitted (generated : Generated) (providers : Providers) (adminId paymentId : Uuid)
    (input : RefundInput) (idempotencyKey : String) : DbTxn RefundView := do
  let outcome ← Txn.tryCatch (do
    let refund ← inTransaction (createWithHold generated adminId paymentId input idempotencyKey)
    pure (Sum.inl refund)) fun error => do
      let winner ← recover adminId idempotencyKey error
      pure (Sum.inr winner)
  match outcome with
  | .inl refund => do
    submit (fun n => generated.fresh (n + 3)) providers refund
    view refund.id
  | .inr winner => pure winner

/-- `request` in full: a new refund is submitted before it is answered. -/
def requestSubmitted (generated : Generated) (providers : Providers) (adminId paymentId : Uuid)
    (input : RefundInput) (idempotencyKey : String) : DbTxn RefundView := do
  let existing ← Txn.queryCommitted fun db => db.findRefundByIdempotencyKey adminId idempotencyKey
  match existing with
  | some existing => view existing.id
  | none => requestNewSubmitted generated providers adminId paymentId input idempotencyKey

end RefundsService

end Services

end Finstack
