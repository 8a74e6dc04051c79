import Finstack.Model.Reconciliation.Payments

/-! # Paystack's records of a payment

The two ways a Paystack transaction reaches the comparison: from the list of a period, and from the
verification of one payment that the list did not include. A date that cannot be parsed is `none`.
-/

namespace Finstack.PaymentProviders.Paystack

open Reconciliation

structure PaystackListedTransaction where
  reference : String
  status : String
  amount : Int
  currency : String
  created_at : Option (Option Nat)
  createdAt : Option (Option Nat)

/-- What `/transaction/verify` says. -/
structure PaystackTransaction where
  reference : String
  status : String
  amount : Int
  currency : String

structure VerifyPaymentInput where
  reference : String
  providerReference : String

def LIST_MAX_PAGES : Nat := 200

/-- Transaction statuses as reconciliation sees them (refunds stay collected). -/
def mapListedStatus (status : String) : ProviderRecordStatus :=
  if status = "success" then .successful
  -- `reversal-pending`: a refund is under way; the money was still collected.
  else if status = "reversed" || status = "reversal-pending" then .refunded
  else if status = "failed" || status = "abandoned" then .failed
  else .pending

/-- Paystack transaction statuses -> FinStack's three outcomes. -/
def mapStatus (status : String) : ProviderPaymentStatus :=
  if status = "success" then .successful
  else if status = "failed" || status = "abandoned" || status = "reversed" then .failed
  else .pending

/-! ## The list of a period -/

/-- A page of a list endpoint, with the page count of its `meta`. -/
structure Page where
  data : List PaystackListedTransaction
  pageCount : Option Nat

/-- `new Date(created_at ?? createdAt ?? 0)` -/
def PaystackListedTransaction.created (t : PaystackListedTransaction) : Option Nat :=
  (t.created_at.or t.createdAt).getD (some 0)

/-- The pages from `page` on; `left` of them may still be fetched. -/
def listPages (fetch : Nat → Except Thrown Page) :
    (left page : Nat) → List PaystackListedTransaction → Except Thrown (List PaystackListedTransaction)
  | 0, _, _ => .error (.provider ⟨"Paystack /transaction: more than " ++ toString LIST_MAX_PAGES ++
      " pages; use a shorter period", false, none⟩)
  | left + 1, page, items => do
    let body ← fetch page
    let items := items ++ body.data
    if body.pageCount.getD 1 ≤ page || body.data.isEmpty then return items
    listPages fetch left (page + 1) items

/-- Every item of the list endpoint created within the range. Paystack's `to` is inclusive. -/
def listAll (fetch : Nat → Except Thrown Page) (range : TimeRange) :
    Except Thrown (List PaystackListedTransaction) := do
  let items ← listPages fetch LIST_MAX_PAGES 1 []
  return items.filter fun item =>
    item.created.any fun created => range.start ≤ created && created < range.stop

/-- What `listPayments` makes of an item; the items it keeps have a date. -/
def listedRecord (t : PaystackListedTransaction) : ProviderPaymentRecord where
  providerReference := t.reference
  reference := some t.reference
  status := mapListedStatus t.status
  amount := t.amount
  currency := t.currency
  createdAt := t.created.getD 0

def listPayments (fetch : Nat → Except Thrown Page) (range : TimeRange) :
    Except Thrown (List ProviderPaymentRecord) := do
  return (← listAll fetch range).map listedRecord

/-! ## One payment -/

/-- `verifyPayment`, on the transaction that Paystack answers with. -/
def verifyPayment (answer : PaystackTransaction) (input : VerifyPaymentInput) :
    Except Thrown VerifyPaymentResult :=
  if answer.reference ≠ input.reference then
    .error (.provider ⟨"Paystack returned a different transaction", false, none⟩)
  else .ok ⟨mapStatus answer.status, answer.amount, answer.currency⟩

/-! ## A run -/

def reconcilePaystack (environment : Environment) (payments : Payments) (range : TimeRange)
    (fetch : Nat → Except Thrown Page) (run : Run) : Except Thrown Run := do
  let theirs ← listPayments fetch range
  reconcilePayments environment "paystack" payments range theirs run

end Finstack.PaymentProviders.Paystack
