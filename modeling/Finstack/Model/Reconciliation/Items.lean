import Finstack.Model.PaymentProviders.Adapters
import Finstack.Model.Tables

/-! # What a reconciliation run finds

The provider's records and the items a run creates from them. An item shows both sides as they were
when it was made.
-/

namespace Finstack.Reconciliation

open PaymentProviders

/-- `refunded`: collected, then (fully) refunded. -/
inductive ProviderRecordStatus where
  | pending
  | successful
  | failed
  | refunded
deriving DecidableEq, Repr

structure ProviderPaymentRecord where
  /-- The provider's reference, as stored on our payment. -/
  providerReference : String
  /-- Our transaction reference, when the provider echoes it. -/
  reference : Option String
  status : ProviderRecordStatus
  /-- Minor units. -/
  amount : Int
  currency : String
  createdAt : Nat
deriving DecidableEq, Repr

structure ProviderPayoutRecord where
  /-- Our payout reference. -/
  reference : String
  providerReference : Value
  status : ProviderPayoutStatus
  amount : Int
  currency : String
  createdAt : Nat

inductive ReconciliationItemKind where
  | payment
  | payout
deriving DecidableEq, Repr

inductive ReconciliationIssue where
  /-- The provider has money (or a transfer) FinStack has no record of. -/
  | missingInFinstack
  /-- The provider collected it; FinStack never credited it. -/
  | notCredited
  /-- FinStack credited it; the provider didn't collect it. -/
  | creditedWithoutPayment
  | amountMismatch
  /-- A payout's state differs from the provider's. -/
  | statusMismatch
  /-- A late webhook: settled by the run itself (auto-resolved). -/
  | lateSettlement
deriving DecidableEq, Repr

inductive ReconciliationItemStatus where
  | open
  | resolved
  | autoResolved
deriving DecidableEq, Repr

/-- FinStack's side of an item. -/
inductive FinstackView where
  | payment (paymentId : Uuid) (reference : String) (status : TransactionStatus) (amount : Int)
      (currency : String)
  | payout (status : TransactionStatus) (amount : Int) (currency : String)
deriving DecidableEq, Repr

/-- The provider's side of an item. -/
inductive ProviderView where
  | payment (record : ProviderPaymentRecord)
  | payout (record : ProviderPayoutRecord)

structure NewItem where
  kind : ReconciliationItemKind
  issue : ReconciliationIssue
  reference : String
  targetId : Option Uuid
  finstack : Option FinstackView
  provider : Option ProviderView
  status : Option ReconciliationItemStatus := none

/-- The status an item is saved with: open unless it says otherwise. -/
def NewItem.savedStatus (item : NewItem) : ReconciliationItemStatus := item.status.getD .open

end Finstack.Reconciliation
