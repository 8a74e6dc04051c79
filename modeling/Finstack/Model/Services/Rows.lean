import Finstack.Model.Database
import Finstack.Model.Limits.Requests
import Finstack.Model.Wallets.Openings

/-! # Rows of the services

What the database checks, locks and writes when a service inserts or updates a row of its tables.
The unique indexes on the accounts of a wallet and on the transaction of a refund are left out, as
what they hold is new, and so are audit logs and the metadata of a transaction, which no service
reads.
-/

namespace Finstack

open Foundation

namespace Db

def onWallets (change : Table Wallet → Table Wallet) (db : Db) : Db :=
  { db with wallets := change db.wallets }

def onTransactions (change : Table Transaction → Table Transaction) (db : Db) : Db :=
  { db with transactions := change db.transactions }

def onPayments (change : Table Payment → Table Payment) (db : Db) : Db :=
  { db with payments := change db.payments }

def onRefunds (change : Table Refund → Table Refund) (db : Db) : Db :=
  { db with refunds := change db.refunds }

def onPayouts (change : Table Payout → Table Payout) (db : Db) : Db :=
  { db with payouts := change db.payouts }

def onFxQuotes (change : Table FxQuote → Table FxQuote) (db : Db) : Db :=
  { db with fxQuotes := change db.fxQuotes }

def addEvent (event : OutboxEvent) (db : Db) : Db :=
  { db with outbox := db.outbox ++ [event] }

/-- An UPDATE of one row checks the row it writes. -/
def checkUpdate {R : Type} (check : R → Except DatabaseError Unit) (change : R → R) :
    Option R → Except DatabaseError Unit
  | some row => check (change row)
  | none => .ok ()

/-! ## Wallets -/

/-- The first unique index that has an entry like this row's. -/
def takenIndex (db : Db) (wallet : Wallet) : Option Wallets.WalletIndex :=
  (Wallets.WalletIndex.ofOwner wallet.owner).find? fun index =>
    index.covers wallet && (db.wallets.rows.find? (index.matching wallet)).isSome

def checkNewWallet (wallet : Wallet) (db : Db) : Except DatabaseError Unit :=
  if (db.wallets.find? wallet.id).isSome then .error (.uniqueViolation "pk_wallets")
  else
    match db.takenIndex wallet with
    | some index => .error (.uniqueViolation (index.name wallet.owner))
    | none => .ok ()

/-- The keys a wallet row takes. -/
def walletLocks (wallet : Wallet) : List RowLock :=
  [.wallet wallet.id false, .walletCurrency wallet.owner wallet.currency] ++
    if wallet.isPrimary then [.walletPrimary wallet.owner] else []

/-! ## Transactions -/

/-- The CHECK constraints of `transactions`. -/
def checkTransaction (row : Transaction) : Except DatabaseError Unit :=
  if row.amount ≤ 0 then .error (.checkViolation "chk_transactions_amount_positive")
  else if (row.status = .successful ∨ row.status = .reversed) ∧ row.ledgerTransactionId = none then
    .error (.checkViolation "chk_transactions_successful_has_ledger")
  else .ok ()

def checkNewTransaction (row : Transaction) (db : Db) : Except DatabaseError Unit := do
  checkTransaction row
  if (db.transactions.find? row.id).isSome then throw (.uniqueViolation "pk_transactions")
  if (db.findTransactionByReference row.reference).isSome then
    throw (.uniqueViolation "uq_transactions_reference")
  if (row.idempotencyKey.bind (db.findByIdempotencyKey row.owner)).isSome then
    throw (.uniqueViolation (Requests.keyConstraint row.owner))

/-- `transactions_check_status_transition`, then the CHECK constraints. -/
def checkTransition (id : Uuid) (change : Transaction → Transaction) (db : Db) :
    Except DatabaseError Unit :=
  match db.transactions.find? id with
  | some row =>
    if (change row).status ≠ row.status ∧ ¬ canTransition row.status (change row).status then
      .error (.raised "transactions_check_status_transition")
    else checkTransaction (change row)
  | none => .ok ()

def transactionLocks (row : Transaction) : List RowLock :=
  [.transaction row.id, .transactionReference row.reference] ++
    (row.idempotencyKey.map (RowLock.transactionIdempotencyKey row.owner)).toList

/-! ## Payments -/

/-- The CHECK constraint of `payments` that an update can violate. -/
def checkPayment (row : Payment) : Except DatabaseError Unit :=
  if row.pendingAmount < 0 then .error (.checkViolation "chk_payments_pending_amount") else .ok ()

/-! ## Refunds -/

/-- The CHECK constraints of `refunds`. -/
def checkRefund (row : Refund) : Except DatabaseError Unit :=
  if row.amount ≤ 0 ∨ row.walletDebitAmount ≤ 0 then
    .error (.checkViolation "chk_refunds_amounts_positive")
  else if row.revenueReversal < 0 ∨
      row.grossReversal ≠ row.walletDebitAmount + row.revenueReversal then
    .error (.checkViolation "chk_refunds_fx_reversal")
  else .ok ()

def checkNewRefund (row : Refund) (db : Db) : Except DatabaseError Unit := do
  checkRefund row
  if (db.refunds.find? row.id).isSome then throw (.uniqueViolation "pk_refunds")
  if (db.findRefundByReference row.reference).isSome then
    throw (.uniqueViolation "uq_refunds_reference")
  if (db.findRefundByIdempotencyKey row.requestedByUserId row.idempotencyKey).isSome then
    throw (.uniqueViolation "uq_refunds_requested_by_idempotency_key")

def refundLocks (row : Refund) : List RowLock :=
  [.refund row.id, .refundReference row.reference,
    .refundIdempotencyKey row.requestedByUserId row.idempotencyKey]

/-! ## Payouts -/

def checkNewPayout (row : Payout) (db : Db) : Except DatabaseError Unit :=
  if row.amount ≤ 0 then .error (.checkViolation "chk_payouts_amount_positive")
  else if (db.payouts.find? row.id).isSome then .error (.uniqueViolation "pk_payouts")
  else if (db.findPayoutByReference row.reference).isSome then
    .error (.uniqueViolation "uq_payouts_reference")
  else if (db.findPayoutByTransaction row.transactionId).isSome then
    .error (.uniqueViolation "uq_payouts_transaction_id")
  else .ok ()

def payoutLocks (row : Payout) : List RowLock :=
  [.payout row.id, .payoutReference row.reference, .payoutTransaction row.transactionId]

/-! ## Quotes -/

/-- The CHECK constraints of `fx_quotes`. -/
def checkQuote (row : FxQuote) : Except DatabaseError Unit :=
  if row.consumedAt.isNone ≠ row.conversionReference.isNone then
    .error (.checkViolation "chk_fx_quotes_consumption_complete")
  else if row.grossTargetAmount < row.targetAmount then
    .error (.checkViolation "chk_fx_quotes_target_within_gross")
  else if row.sourceAmount ≤ 0 ∨ row.targetAmount ≤ 0 then
    .error (.checkViolation "chk_fx_quotes_amounts_positive")
  else if row.sourceCurrency = row.targetCurrency then
    .error (.checkViolation "chk_fx_quotes_distinct_currencies")
  else .ok ()

def checkNewQuote (row : FxQuote) (db : Db) : Except DatabaseError Unit := do
  checkQuote row
  if (db.fxQuotes.find? row.id).isSome then throw (.uniqueViolation "pk_fx_quotes")

/-- The row written, and the unique index of the reference it is given. -/
def checkConversion (id : Uuid) (reference : String) (change : FxQuote → FxQuote) (db : Db) :
    Except DatabaseError Unit := do
  checkUpdate checkQuote change (db.fxQuotes.find? id)
  if ((db.findQuoteByConversion reference).map key).any (· ≠ id) then
    throw (.uniqueViolation "uq_fx_quotes_conversion_reference")

end Db

/-- The row, or this error. -/
def orThrow {α : Type} (error : Err) : Option α → DbTxn α
  | some row => pure row
  | none => Txn.throw error

/-- An INSERT or UPDATE that the database may refuse. -/
def save (locks : List RowLock) (check : Db → Except DatabaseError Unit) (write : Db → Db) :
    DbTxn Unit :=
  Txn.statement locks fun db => databaseCheck (check db) write

namespace Services.OutboxService

/-- The event exists exactly when the change it describes is committed. -/
def add (event : OutboxEvent) : DbTxn Unit := Txn.execute [] (Db.addEvent event)

end Services.OutboxService

end Finstack
