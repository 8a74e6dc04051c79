import Finstack.Foundation.TxnRules
import Finstack.Model.Ledger.Store
import Finstack.Model.Tables

/-! # The database and its locks

All tables, the clock, and what transactions lock: rows, and the keys of unique indexes, which an
uncommitted insert holds until its transaction ends. A lock guards one observation of the
database, the row or the index lookup it is about.
-/

namespace Finstack

open Foundation

structure Db where
  /-- Milliseconds; read by `Date.now()` and `now()`. -/
  clock : Nat
  ledger : Ledger
  wallets : Table Wallet
  transactions : Table Transaction
  payments : Table Payment
  refunds : Table Refund
  payouts : Table Payout
  fxQuotes : Table FxQuote
  outbox : List OutboxEvent
  destinations : Table PayoutDestination
  feeRules : List FeeRule
  limitRules : List LimitRule
  users : List User

/-- What a transaction can lock. -/
inductive RowLock where
  | account (id : Uuid)
  | accountCode (code : String)
  /-- `FOR KEY SHARE` of a foreign key when shared. -/
  | ledgerTransaction (id : Uuid) (shared : Bool)
  | ledgerReference (reference : String)
  | ledgerReversal (transactionId : Uuid)
  /-- `FOR SHARE` when shared, `FOR UPDATE` or a write otherwise. -/
  | wallet (id : Uuid) (shared : Bool)
  | walletCurrency (owner : Owner) (currency : String)
  | walletPrimary (owner : Owner)
  | transaction (id : Uuid)
  | transactionReference (reference : String)
  | transactionIdempotencyKey (owner : Owner) (idempotencyKey : String)
  | payment (id : Uuid)
  | paymentTransaction (transactionId : Uuid)
  | refund (id : Uuid)
  | refundReference (reference : String)
  | refundIdempotencyKey (adminId : Uuid) (idempotencyKey : String)
  | payout (id : Uuid)
  | payoutReference (reference : String)
  | payoutTransaction (transactionId : Uuid)
  | fxQuote (id : Uuid)
  | conversionReference (reference : String)
  /-- `pg_advisory_xact_lock`. -/
  | advisory (key : String)
deriving DecidableEq, Repr

namespace RowLock

/-- Shared locks exclude only exclusive ones. -/
def shared : RowLock → Bool
  | .wallet _ shared | .ledgerTransaction _ shared => shared
  | _ => false

/-- The exclusive lock of the same thing. -/
def exclusive : RowLock → RowLock
  | .wallet id _ => .wallet id false
  | .ledgerTransaction id _ => .ledgerTransaction id false
  | lock => lock

def conflicts (a b : RowLock) : Bool :=
  a.exclusive == b.exclusive && !(a.shared && b.shared)

instance : Locking RowLock where
  conflicts := conflicts
  symm a b := by
    have flip : (a.exclusive == b.exclusive) = (b.exclusive == a.exclusive) := BEq.comm
    unfold conflicts
    rw [flip, Bool.and_comm a.shared]

/-- What does not conflict with an exclusive lock is about something else. -/
theorem ne_of_free {held : List RowLock} {l m : RowLock}
    (free : ∀ m ∈ held, Locking.conflicts m l = false) (member : m ∈ held)
    (exclusive : m.shared = false) : m.exclusive ≠ l.exclusive := by
  intro same
  have none := free m member
  simp [Locking.conflicts, conflicts, same, exclusive] at none

end RowLock

namespace Db

/-- A database after the migrations, before its first row. -/
def empty : Db where
  clock := 0
  ledger := .empty
  wallets := .empty
  transactions := .empty
  payments := .empty
  refunds := .empty
  payouts := .empty
  fxQuotes := .empty
  outbox := []
  destinations := .empty
  feeRules := []
  limitRules := []
  users := []

def findTransactionByReference (db : Db) (reference : String) : Option Transaction :=
  db.transactions.rows.find? fun transaction => transaction.reference = reference

def findByIdempotencyKey (db : Db) (owner : Owner) (idempotencyKey : String) : Option Transaction :=
  db.transactions.rows.find? fun transaction =>
    transaction.owner = owner ∧ transaction.idempotencyKey = some idempotencyKey

def findPaymentByTransaction (db : Db) (transactionId : Uuid) : Option Payment :=
  db.payments.rows.find? fun payment => payment.transactionId = transactionId

def findRefundByReference (db : Db) (reference : String) : Option Refund :=
  db.refunds.rows.find? fun refund => refund.reference = reference

def findRefundByIdempotencyKey (db : Db) (adminId : Uuid) (idempotencyKey : String) :
    Option Refund :=
  db.refunds.rows.find? fun refund =>
    refund.requestedByUserId = adminId ∧ refund.idempotencyKey = idempotencyKey

def findPayoutByReference (db : Db) (reference : String) : Option Payout :=
  db.payouts.rows.find? fun payout => payout.reference = reference

def findPayoutByTransaction (db : Db) (transactionId : Uuid) : Option Payout :=
  db.payouts.rows.find? fun payout => payout.transactionId = transactionId

def findWallet (db : Db) (owner : Owner) (currency : String) : Option Wallet :=
  db.wallets.rows.find? fun wallet => wallet.owner = owner ∧ wallet.currency = currency

def findPrimaryWallet (db : Db) (owner : Owner) : Option Wallet :=
  db.wallets.rows.find? fun wallet => wallet.owner = owner ∧ wallet.isPrimary

def findQuoteByConversion (db : Db) (reference : String) : Option FxQuote :=
  db.fxQuotes.rows.find? fun quote => quote.conversionReference = some reference

/-- What a lock is about. -/
inductive Observed where
  | account (row : Option LedgerAccount) (entries : List LedgerEntry)
  | ledgerTransaction (row : Option LedgerTransaction) (entries : List LedgerEntry)
  | wallet (row : Option Wallet)
  | transaction (row : Option Transaction)
  | payment (row : Option Payment)
  | refund (row : Option Refund)
  | payout (row : Option Payout)
  | fxQuote (row : Option FxQuote)
  /-- The row an index has under a key. -/
  | index (id : Option Uuid)
  | nothing

/-- The part of the database a lock keeps unchanged for its holder. -/
def observe (db : Db) : RowLock → Observed
  | .account id => .account (db.ledger.accounts.find? id) (db.ledger.entriesOn id)
  | .accountCode code => .index ((db.ledger.findAccountByCode code).map key)
  | .ledgerTransaction id _ =>
      .ledgerTransaction (db.ledger.transactions.find? id) (db.ledger.entriesOf id)
  | .ledgerReference reference =>
      .index ((db.ledger.findTransactionByReference reference).map key)
  | .ledgerReversal id => .index ((db.ledger.findReversalOf id).map key)
  | .wallet id _ => .wallet (db.wallets.find? id)
  | .walletCurrency owner currency => .index ((db.findWallet owner currency).map key)
  | .walletPrimary owner => .index ((db.findPrimaryWallet owner).map key)
  | .transaction id => .transaction (db.transactions.find? id)
  | .transactionReference reference => .index ((db.findTransactionByReference reference).map key)
  | .transactionIdempotencyKey owner idempotencyKey =>
      .index ((db.findByIdempotencyKey owner idempotencyKey).map key)
  | .payment id => .payment (db.payments.find? id)
  | .paymentTransaction id => .index ((db.findPaymentByTransaction id).map key)
  | .refund id => .refund (db.refunds.find? id)
  | .refundReference reference => .index ((db.findRefundByReference reference).map key)
  | .refundIdempotencyKey adminId idempotencyKey =>
      .index ((db.findRefundByIdempotencyKey adminId idempotencyKey).map key)
  | .payout id => .payout (db.payouts.find? id)
  | .payoutReference reference => .index ((db.findPayoutByReference reference).map key)
  | .payoutTransaction id => .index ((db.findPayoutByTransaction id).map key)
  | .fxQuote id => .fxQuote (db.fxQuotes.find? id)
  | .conversionReference _ => .nothing
  | .advisory _ => .nothing

instance : Guarding Db RowLock := ⟨Observed, observe⟩

theorem same_observed {db db' : Db} {l : RowLock} :
    Guarding.observe db l = Guarding.observe db' l ↔ db.observe l = db'.observe l := Iff.rfl

/-- A change of the ledger tables. -/
def onLedger (change : Ledger → Ledger) (db : Db) : Db :=
  { db with ledger := change db.ledger }

/-- The clock never goes back. -/
def Tick (db db' : Db) : Prop :=
  ∃ clock, db.clock ≤ clock ∧ db' = { db with clock }

end Db

/-- A program of the services. -/
abbrev DbTxn (α : Type) := Txn Db RowLock Err α

/-- A synchronous check. -/
def check (result : Except Err Unit) : DbTxn Unit := Prog.ret result

/-- The database ran this check while executing a statement. -/
def databaseCheck (result : Except DatabaseError Unit) (write : Db → Db) :
    Except Err (Unit × (Db → Db)) :=
  match result with
  | .ok _ => .ok ((), write)
  | .error e => .error (.database e)

/-- The deferred constraint triggers, at commit. -/
def deferredConstraints : DbTxn Unit :=
  Txn.statement [] fun db => databaseCheck db.ledger.checkDeferred (Db.onLedger Ledger.clearDeferred)

/-- `dataSource.transaction(...)`. -/
def inTransaction {α : Type} (body : DbTxn α) : DbTxn α :=
  Txn.transaction deferredConstraints body

/-- Which connection a read runs on: the caller's open transaction or one of its own. -/
inductive Manager where
  | transaction
  | dataSource
deriving DecidableEq, Repr

def Manager.query {α : Type} : Manager → (Db → α) → DbTxn α
  | .transaction, read => Txn.query read
  | .dataSource, read => Txn.queryCommitted read

/-- `findOneByOrFail`. -/
def orFail {α : Type} (entity : String) : Option α → DbTxn α
  | some row => pure row
  | none => Txn.throw (.entityNotFound entity)

end Finstack
