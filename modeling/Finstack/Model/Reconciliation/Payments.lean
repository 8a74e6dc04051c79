import Finstack.Model.Reconciliation.Items

/-! # Reconciling payments

`reconcilePayments` for one provider: a loop over the provider's records, then one over the credited
payments that no record was seen for. What a settlement comes to and what the provider says when it
is asked about one payment are the environment's.
-/

namespace Finstack.Reconciliation

open PaymentProviders

/-- The `payments` table with its unique indexes. -/
structure Payments where
  rows : List Payment
  ids : rows.Pairwise fun p q => p.id ≠ q.id
  transactionIds : rows.Pairwise fun p q => p.transactionId ≠ q.transactionId
  /-- `uq_payments_provider_reference` -/
  providerReferences : rows.Pairwise fun p q =>
    p.provider = q.provider → p.providerReference.isSome = true →
      p.providerReference ≠ q.providerReference

/-- Half-open. -/
structure TimeRange where
  start : Nat
  stop : Nat

structure VerifyPaymentResult where
  status : ProviderPaymentStatus
  /-- What the provider actually collected, in minor units. -/
  amount : Int
  currency : String

/-- What is not decided by the run itself. -/
structure Environment where
  /-- The status that the payment's transaction has after the run's n-th attempt to settle it. -/
  settle : (paymentId : Uuid) → (attempt : Nat) → TransactionStatus → TransactionStatus
  verifyPayment : (reference providerReference : String) → Except Thrown VerifyPaymentResult

/-- The state of a run. -/
structure Run where
  transactions : Uuid → Transaction
  /-- How often the run has tried to settle a payment. -/
  attempts : Uuid → Nat
  found : List NewItem

def Run.push (run : Run) (item : NewItem) : Run := { run with found := run.found ++ [item] }

def Run.transactionOf (run : Run) (payment : Payment) : Transaction :=
  run.transactions payment.transactionId

/-- Collected, as far as the money is concerned (a refund came later). -/
def COLLECTED : ProviderRecordStatus → Bool
  | .successful | .refunded => true
  | .pending | .failed => false

def CREDITED : TransactionStatus → Bool
  | .successful | .reversed => true
  | _ => false

def OPEN_PAYMENT : TransactionStatus → Bool
  | .pending | .processing => true
  | _ => false

section

variable (environment : Environment) (provider : String) (payments : Payments) (range : TimeRange)

def listForProvider : List Payment :=
  payments.rows.filter fun payment =>
    payment.provider == provider && range.start ≤ payment.createdAt &&
      payment.createdAt < range.stop

def findByProviderReference (providerReference : String) : Option Payment :=
  payments.rows.find? fun payment =>
    payment.provider == provider && payment.providerReference == some providerReference

/-- A text that is there and not empty. -/
def truthyText : Option String → Bool
  | some text => text != ""
  | none => false

/-- The last of `ours` with this reference: a later entry of a `Map` replaces an earlier one. -/
def oursByReference (ours : List Payment) (providerReference : String) : Option Payment :=
  (ours.filter fun payment => truthyText payment.providerReference).reverse.find? fun payment =>
    payment.providerReference == some providerReference

/-- The payment of a record, also one outside our window. -/
def paymentOf (record : ProviderPaymentRecord) : Option Payment :=
  (oursByReference (listForProvider provider payments range) record.providerReference).or
    (findByProviderReference provider payments record.providerReference)

def paymentView (payment : Payment) (transaction : Transaction) : FinstackView :=
  .payment payment.id transaction.reference transaction.status payment.amount payment.currency

/-- One attempt to settle; what it throws is ignored. -/
def Run.settle (payment : Payment) (run : Run) : Run :=
  let transaction := run.transactionOf payment
  let status := environment.settle payment.id (run.attempts payment.id) transaction.status
  { run with
    transactions := Function.update run.transactions payment.transactionId
      { transaction with status }
    attempts := Function.update run.attempts payment.id (run.attempts payment.id + 1) }

/-- An item on a payment, with its transaction as last read. -/
def paymentItem (payment : Payment) (record : ProviderPaymentRecord) (transaction : Transaction)
    (issue : ReconciliationIssue) (status : Option ReconciliationItemStatus) : NewItem where
  kind := .payment
  issue
  reference := transaction.reference
  targetId := some payment.id
  finstack := some (paymentView payment transaction)
  provider := some (.payment record)
  status

def comparePayment (payment : Payment) (record : ProviderPaymentRecord) (run : Run) : Run :=
  let transaction := run.transactionOf payment
  let collected := COLLECTED record.status
  let item := paymentItem payment record
  if collected && (record.amount != payment.amount || record.currency != payment.currency) then
    run.push (item transaction .amountMismatch none)
  else if collected && !CREDITED transaction.status then
    if OPEN_PAYMENT transaction.status then
      -- A late (or lost) webhook: settle it the normal way.
      let settled := run.settle environment payment
      let transaction := settled.transactionOf payment
      if CREDITED transaction.status then
        settled.push (item transaction .lateSettlement (some .autoResolved))
      else settled.push (item transaction .notCredited none)
    else run.push (item transaction .notCredited none)
  else if !collected && CREDITED transaction.status then
    run.push (item transaction .creditedWithoutPayment none)
  else run

/-- The body of the loop over the provider's records. -/
def compareRecord (run : Run) (record : ProviderPaymentRecord) : Run :=
  match paymentOf provider payments range record with
  | none =>
    if COLLECTED record.status then
      run.push
        { kind := .payment
          issue := .missingInFinstack
          reference := record.providerReference
          targetId := none
          finstack := none
          provider := some (.payment record) }
    else run
  | some payment => comparePayment environment payment record run

def recordStatus : ProviderPaymentStatus → ProviderRecordStatus
  | .pending => .pending
  | .successful => .successful
  | .failed => .failed

/-- A credited payment that the list didn't include: the provider is asked about it directly. -/
def askAbout (payment : Payment) (providerReference : String) (run : Run) : Except Thrown Run :=
  let transaction := run.transactionOf payment
  match environment.verifyPayment transaction.reference providerReference with
  | .ok verified =>
    .ok (comparePayment environment payment
      { providerReference
        reference := none
        status := recordStatus verified.status
        amount := verified.amount
        currency := verified.currency
        createdAt := payment.createdAt } run)
  | .error thrown =>
    if isRejection thrown then
      .ok (run.push
        { kind := .payment
          issue := .creditedWithoutPayment
          reference := transaction.reference
          targetId := some payment.id
          finstack := some (paymentView payment transaction)
          provider := none })
    -- The run fails and can be repeated.
    else .error thrown

/-- The body of the loop over our payments. -/
def checkUnseen (seen : List String) (run : Run) (payment : Payment) : Except Thrown Run :=
  match payment.providerReference with
  | none => .ok run
  | some providerReference =>
    if providerReference = "" || seen.contains providerReference then .ok run
    else if !CREDITED (run.transactionOf payment).status then .ok run
    else askAbout environment payment providerReference run

def reconcilePayments (theirs : List ProviderPaymentRecord) (run : Run) : Except Thrown Run :=
  let compared := theirs.foldl (compareRecord environment provider payments range) run
  let seen := theirs.map fun record => record.providerReference
  (listForProvider provider payments range).foldlM (checkUnseen environment seen) compared

end

/-- The run as `execute` starts it. -/
def Run.start (transactions : Uuid → Transaction) : Run := ⟨transactions, fun _ => 0, []⟩

end Finstack.Reconciliation
