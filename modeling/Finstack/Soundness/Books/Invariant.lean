import Finstack.Foundation.Facts
import Finstack.Soundness.Books.References
import Finstack.Soundness.Books.Rows

/-! # The books

What is true of the database between any two commits of settlements, releases, refunds, payouts and
transfers: how rows refer to each other, whom each posting is for, and that the balances of wallets are
what the rows of payments, refunds and payouts say.
-/

namespace Finstack

open Foundation Discipline Services

/-! ## Records -/

/-- The rows of a table record operations: each has a transaction of its own. -/
structure Files {R : Type} [Keyed R Uuid] (db : Db) (table : Table R) (transactionId : R → Uuid)
    (type : TransactionType) : Prop where
  stored : ∀ row ∈ table, ∃ transaction,
    db.transactions.find? (transactionId row) = some transaction ∧ transaction.type = type
  own : ∀ row ∈ table, ∀ other ∈ table, transactionId row = transactionId other → row = other

/-- Rows have a name that has no colon and no other row. -/
structure Named {R : Type} [Keyed R Uuid] (table : Table R) (name : R → String) : Prop where
  plain : ∀ row ∈ table, Colonless (name row)
  unique : ∀ row ∈ table, ∀ other ∈ table, name row = name other → row = other

/-- The CHECK constraints of `fee_rules`. -/
structure FeeRule.Checked (rule : FeeRule) : Prop where
  fixedAmount : 0 ≤ rule.fixedAmount
  minAmount : 0 ≤ rule.minAmount
  percentageBps : 0 ≤ rule.percentageBps
  maxAmount : ∀ most, rule.maxAmount = some most → rule.minAmount ≤ most

/-! ## Accounts -/

/-- Whose the accounts are: a wallet's own, or the platform's. -/
structure Accounts (wallets : Table Wallet) (accounts : Table LedgerAccount) : Prop where
  opened : ∀ wallet ∈ wallets, ∀ balance, ∃ account,
    accounts.find? (balanceAccount wallet balance) = some account ∧
      account.code = none ∧ account.normalBalance = .credit
  own : ∀ wallet ∈ wallets, ∀ other ∈ wallets, ∀ balance balance',
    balanceAccount wallet balance = balanceAccount other balance' →
      wallet = other ∧ balance = balance'

namespace Db

/-- How the rows of the services refer to each other. -/
structure Linked (db : Db) : Prop where
  payments : Files db db.payments Payment.transactionId .payment
  refunds : Files db db.refunds Refund.transactionId .refund
  payouts : Files db db.payouts Payout.transactionId .withdrawal
  transactionNames : Named db.transactions Transaction.reference
  refundNames : Named db.refunds Refund.reference
  payoutNames : Named db.payouts Payout.reference
  credited : ∀ payment ∈ db.payments, 0 < payment.amount ∧ 0 ≤ payment.pendingAmount ∧
    (∃ wallet ∈ db.wallets, wallet.id = payment.walletId) ∧ 0 ≤ db.feeOf payment.transactionId
  refunding : ∀ refund ∈ db.refunds, 0 < refund.amount ∧ 0 < refund.walletDebitAmount ∧
    0 ≤ refund.pendingHoldAmount ∧ refund.pendingHoldAmount ≤ refund.walletDebitAmount ∧
    ∃ payment ∈ db.payments, payment.id = refund.paymentId ∧ payment.walletId = refund.walletId
  payingOut : ∀ payout ∈ db.payouts, 0 < payout.amount ∧ 0 ≤ db.feeOf payout.transactionId ∧
    ∃ wallet ∈ db.wallets, wallet.id = payout.walletId ∧ wallet.currency = payout.currency
  refundStatus : ∀ refund ∈ db.refunds, ∀ status,
    db.statusOf refund.transactionId = some status →
      status = .processing ∨ status = .successful ∨ status = .failed
  payoutStatus : ∀ payout ∈ db.payouts, ∀ status,
    db.statusOf payout.transactionId = some status →
      status = .processing ∨ status = .successful ∨ status = .failed ∨ status = .reversed

/-! ## Postings -/

/-- Something has been posted under this reference. -/
def Uses (db : Db) (reference : String) : Prop :=
  ∃ posting ∈ db.ledger.transactions, posting.reference = reference

/-- The row's transaction has one of these statuses. -/
def Has (db : Db) (statuses : List TransactionStatus) (transactionId : Uuid) : Prop :=
  (db.statusOf transactionId).any statuses.contains

/-- The record with this name has come as far as a posting for this purpose. -/
def Done (db : Db) (name : String) : Purpose → Prop
  | .payment | .paymentSource | .paymentTarget | .paymentFee => ∃ row ∈ db.transactions,
      row.reference = name ∧ row.type = .payment ∧
        (row.status = .successful ∨ row.status = .reversed)
  | .settlement => ∃ payment ∈ db.payments, uuidText payment.id = name ∧
      payment.pendingAmount = 0 ∧ ∃ time, payment.fundsAvailableAt = some time ∧ time ≤ db.clock
  | .refundHold => ∃ refund ∈ db.refunds, refund.reference = name
  | .refund | .refundSource => ∃ refund ∈ db.refunds, refund.reference = name ∧
      db.statusOf refund.transactionId = some .successful
  | .refundRelease => ∃ refund ∈ db.refunds, refund.reference = name ∧
      db.statusOf refund.transactionId = some .failed
  | .payoutHold => ∃ payout ∈ db.payouts, payout.reference = name
  | .payout | .payoutFee => ∃ payout ∈ db.payouts, payout.reference = name ∧
      (db.statusOf payout.transactionId = some .successful ∨
        db.statusOf payout.transactionId = some .reversed)
  | .payoutRelease => ∃ payout ∈ db.payouts, payout.reference = name ∧
      db.statusOf payout.transactionId = some .failed
  | .payoutReversal | .payoutFeeRefund => ∃ payout ∈ db.payouts, payout.reference = name ∧
      db.statusOf payout.transactionId = some .reversed
  | .transfer | .transferFee => ∃ row ∈ db.transactions,
      row.reference = name ∧ row.type = .transfer

/-- Every posting is one that its record has come to. -/
structure Journal (db : Db) : Prop where
  indexed : db.ledger.Indexed
  entries : ∀ entry ∈ db.ledger.entries,
    (db.ledger.transactions.find? entry.ledgerTransactionId).isSome
  settled : db.ledger.deferred = []
  attributed : ∀ posting ∈ db.ledger.transactions, ∃ purpose name,
    Colonless name ∧ posting.reference = postingReference purpose name ∧ db.Done name purpose

/-! ## Balances -/

/-- What the balances have to be. -/
structure Balances (db : Db) : Prop where
  pending : ∀ wallet ∈ db.wallets, cachedBalance db.ledger.accounts wallet.pendingAccountId =
    db.pendingOf wallet.id
  reserved : ∀ wallet ∈ db.wallets, cachedBalance db.ledger.accounts wallet.reservedAccountId =
    db.heldOf wallet.id

/-! ## Refunds and settlement holds -/

/-- A payment is reversed once its successful refunds add up to it. -/
def Reversed (db : Db) : Prop :=
  ∀ payment ∈ db.payments, RefundsService.totalOf [.successful] payment.id db = payment.amount →
    db.statusOf payment.transactionId = some .reversed

/-- What has not been credited has nothing in its settlement hold. -/
def Uncredited (db : Db) : Prop :=
  ∀ payment ∈ db.payments, ¬ db.Has [.successful, .reversed] payment.transactionId →
    payment.pendingAmount = 0 ∧ payment.fundsAvailableAt = none

/-- A consumed quote converted a payment. -/
def Consumed (db : Db) : Prop :=
  ∀ quote ∈ db.fxQuotes, ∀ reference, quote.conversionReference = some reference →
    ∃ name, Colonless name ∧ reference = postingReference .payment name ∧ db.Done name .payment

structure Books (db : Db) : Prop where
  linked : db.Linked
  accounts : Accounts db.wallets db.ledger.accounts
  journal : db.Journal
  balances : db.Balances
  reversed : db.Reversed
  uncredited : db.Uncredited
  consumed : db.Consumed
  fees : ∀ rule ∈ db.feeRules, rule.Checked

end Db

end Finstack
