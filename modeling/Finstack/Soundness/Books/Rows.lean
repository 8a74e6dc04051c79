import Finstack.Foundation.TableTotal
import Finstack.Model.Services.Calls
import Finstack.Soundness.Ledger.Posted
import Finstack.Soundness.Ledger.Records
import Finstack.Soundness.Services.Movements
import Finstack.Soundness.Services.Recorded

/-! # What the books add up

Statuses, balances and sums over the rows of the services, and what each kind of write does to them.
-/

namespace Finstack

open Foundation LedgerService

/-! ## Statuses -/

namespace TransactionStatus

/-- Statuses only move along the transitions. -/
abbrev Later : TransactionStatus → TransactionStatus → Prop :=
  Relation.ReflTransGen fun current next => canTransition current next = true

theorem Later.of_terminal {current next : TransactionStatus} (later : Later current next)
    (terminal : isTerminal current = true) : next = current := by
  rcases later.cases_head with same | ⟨second, step, -⟩
  · exact same.symm
  · rw [canTransition, List.isEmpty_iff.mp terminal] at step
    cases step

theorem Later.of_successful {next : TransactionStatus} (later : Later .successful next) :
    next = .successful ∨ next = .reversed := by
  induction later with
  | refl => exact .inl rfl
  | tail _ step ih =>
    rcases ih with rfl | rfl
    · refine .inr ?_
      simpa [canTransition, TRANSACTION_TRANSITIONS] using step
    · simp [canTransition, TRANSACTION_TRANSITIONS] at step

theorem Later.of_processing {next : TransactionStatus} (later : Later .processing next) :
    next = .processing ∨ next = .successful ∨ next = .failed ∨ next = .reversed := by
  induction later with
  | refl => exact .inl rfl
  | tail _ step ih =>
    rcases ih with rfl | rfl | rfl | rfl
    · rcases (by simpa [canTransition, TRANSACTION_TRANSITIONS] using step) with rfl | rfl <;> simp
    · obtain rfl := (by simpa [canTransition, TRANSACTION_TRANSITIONS] using step)
      simp
    · simp [canTransition, TRANSACTION_TRANSITIONS] at step
    · simp [canTransition, TRANSACTION_TRANSITIONS] at step

end TransactionStatus

/-- The cached balance of an account, zero where there is none. -/
def cachedBalance (accounts : Table LedgerAccount) (accountId : Uuid) : Int :=
  (accounts.find? accountId).elim 0 (·.balance)

namespace Db

def statusOf (db : Db) (transactionId : Uuid) : Option TransactionStatus :=
  (db.transactions.find? transactionId).map (·.status)

theorem statusOf_of_find? {db : Db} {id : Uuid} {row : Transaction}
    (found : db.transactions.find? id = some row) : db.statusOf id = some row.status := by
  rw [statusOf, found, Option.map_some]

/-! ## What is held -/

/-- What the wallet's payments still have in pending. -/
def pendingOf (db : Db) (walletId : Uuid) : Int :=
  db.payments.sum fun payment => if payment.walletId = walletId then payment.pendingAmount else 0

/-- What a refund holds in reserved. -/
def refundHold (db : Db) (walletId : Uuid) (refund : Refund) : Int :=
  if refund.walletId = walletId ∧ db.statusOf refund.transactionId = some .processing then
    refund.walletDebitAmount
  else 0

/-- A payout's fee, as its transaction has recorded it. -/
def feeOf (db : Db) (transactionId : Uuid) : Int :=
  (db.transactions.find? transactionId).elim 0 (·.feeAmount)

/-- What a payout holds in reserved. -/
def payoutHold (db : Db) (walletId : Uuid) (payout : Payout) : Int :=
  if payout.walletId = walletId ∧ db.statusOf payout.transactionId = some .processing then
    payout.amount + db.feeOf payout.transactionId
  else 0

/-- What the wallet's processing refunds and payouts hold. -/
def heldOf (db : Db) (walletId : Uuid) : Int :=
  db.refunds.sum (db.refundHold walletId) + db.payouts.sum (db.payoutHold walletId)

/-- What a refund counts in the total of its payment's refunds with these statuses. -/
def refunded (db : Db) (statuses : List TransactionStatus) (paymentId : Uuid) (refund : Refund) :
    Int :=
  if refund.paymentId = paymentId ∧ (db.statusOf refund.transactionId).any statuses.contains then
    refund.amount
  else 0

theorem totalOf_eq (db : Db) (statuses : List TransactionStatus) (paymentId : Uuid) :
    Services.RefundsService.totalOf statuses paymentId db =
      db.refunds.sum (db.refunded statuses paymentId) := by
  unfold Services.RefundsService.totalOf
  rw [Table.sum_filter]
  refine Table.sum_congr fun refund _ => if_congr ?_ rfl rfl
  simp [statusOf, Option.any_map]

end Db

end Finstack
