import Finstack.Model.Errors
import Finstack.Model.Currency
import Finstack.Model.Ledger.Types

/-! # The ledger tables

The three tables with what the database itself does to them: column constraints, unique indexes,
foreign keys and the integrity triggers. Entries are applied to their accounts one row at a time,
each row under the non-negative check; balanced transactions are checked at commit, for the rows
the transaction inserted.
-/

namespace Finstack

open Foundation

structure Ledger where
  accounts : Table LedgerAccount
  transactions : Table LedgerTransaction
  entries : List LedgerEntry
  /-- Transactions whose balance the open database transaction must still prove at commit. -/
  deferred : List Uuid

namespace Ledger

def empty : Ledger := ⟨.empty, .empty, [], []⟩

def findAccountByCode (ledger : Ledger) (code : String) : Option LedgerAccount :=
  ledger.accounts.rows.find? fun account => account.code = some code

def findTransactionByReference (ledger : Ledger) (reference : String) : Option LedgerTransaction :=
  ledger.transactions.rows.find? fun transaction => transaction.reference = reference

def findReversalOf (ledger : Ledger) (transactionId : Uuid) : Option LedgerTransaction :=
  ledger.transactions.rows.find? fun transaction => transaction.reversalOfId = some transactionId

def entriesOf (ledger : Ledger) (transactionId : Uuid) : List LedgerEntry :=
  ledger.entries.filter fun entry => entry.ledgerTransactionId = transactionId

def entriesOn (ledger : Ledger) (accountId : Uuid) : List LedgerEntry :=
  ledger.entries.filter fun entry => entry.ledgerAccountId = accountId

/-- PostgreSQL's `bigint`. -/
def inBigint (value : Int) : Bool :=
  -(2 ^ 63) ≤ value && value < 2 ^ 63

/-! ## Accounts -/

/-- Constraints of `ledger_accounts` and `ledger_accounts_guard_balance` on insert. -/
def checkNewAccount (ledger : Ledger) (account : LedgerAccount) : Except DatabaseError Unit :=
  if account.balance ≠ 0 then .error (.raised "ledger_accounts_guard_balance")
  else if account.name.length > 200 ∨ (account.code.getD "").length > 100 then .error .stringTooLong
  else if ¬ isCurrencyCode account.currency then
    .error (.checkViolation "chk_ledger_accounts_currency")
  else if (ledger.accounts.find? account.id).isSome then
    .error (.uniqueViolation "pk_ledger_accounts")
  else if (account.code.bind ledger.findAccountByCode).isSome then
    .error (.uniqueViolation "uq_ledger_accounts_code")
  else .ok ()

def insertAccount (account : LedgerAccount) (ledger : Ledger) : Ledger :=
  { ledger with accounts := ledger.accounts.insert account }

/-! ## Transactions -/

/-- Constraints of `ledger_transactions` on insert. -/
def checkNewTransaction (ledger : Ledger) (transaction : LedgerTransaction) :
    Except DatabaseError Unit :=
  if transaction.reference.length > 255 ∨ transaction.description.length > 500 then
    .error .stringTooLong
  else if ¬ inBigint transaction.amount then .error .numericOutOfRange
  else if ¬ isCurrencyCode transaction.currency then
    .error (.checkViolation "chk_ledger_transactions_currency")
  else if transaction.amount ≤ 0 then
    .error (.checkViolation "chk_ledger_transactions_amount_positive")
  else if (ledger.transactions.find? transaction.id).isSome then
    .error (.uniqueViolation "pk_ledger_transactions")
  else if (ledger.findTransactionByReference transaction.reference).isSome then
    .error (.uniqueViolation "uq_ledger_transactions_reference")
  else if (transaction.reversalOfId.bind ledger.findReversalOf).isSome then
    .error (.uniqueViolation "uq_ledger_transactions_reversal_of_id")
  else if (transaction.reversalOfId.any fun id => (ledger.transactions.find? id).isNone) then
    .error (.foreignKeyViolation "fk_ledger_transactions_reversal_of")
  else .ok ()

/-- Inserts the row and queues `trg_ledger_transactions_balanced`. -/
def insertTransaction (transaction : LedgerTransaction) (ledger : Ledger) : Ledger :=
  { ledger with
    transactions := ledger.transactions.insert transaction
    deferred := ledger.deferred ++ [transaction.id] }

/-! ## Entries -/

/-- `ledger_entries_check_currency` and the CHECKs of one new entry. -/
def checkEntry (ledger : Ledger) (entry : LedgerEntry) : Except DatabaseError Unit :=
  if ¬ inBigint entry.amount then .error .numericOutOfRange
  else if (ledger.accounts.find? entry.ledgerAccountId).map (·.currency) ≠ some entry.currency ∨
      (ledger.transactions.find? entry.ledgerTransactionId).map (·.currency) ≠
        some entry.currency then
    .error (.raised "ledger_entries_check_currency")
  else if entry.amount ≤ 0 then .error (.checkViolation "chk_ledger_entries_amount_positive")
  else .ok ()

/-- `ledger_entries_apply_balance`: one entry moves its account's cached balance. -/
def applyBalance (accounts : Table LedgerAccount) (entry : LedgerEntry) : Table LedgerAccount :=
  match accounts.find? entry.ledgerAccountId with
  | none => accounts
  | some account => accounts.replace (account.credited (account.signed entry.direction entry.amount))

/-- What the account's constraints say to the balance an entry leaves. -/
def checkApplied (accounts : Table LedgerAccount) (entry : LedgerEntry) :
    Except DatabaseError Unit :=
  match accounts.find? entry.ledgerAccountId with
  | none => .error (.foreignKeyViolation "fk_ledger_entries_ledger_account")
  | some account =>
    let balance := account.balance + account.signed entry.direction entry.amount
    if ¬ inBigint balance then .error .numericOutOfRange
    else if account.allowNegativeBalance = false ∧ balance < 0 then
      .error (.checkViolation "chk_ledger_accounts_non_negative")
    else .ok ()

/-- The balance trigger, row after row: each row has to pass before the next one is applied. -/
def checkBalances : List LedgerEntry → Table LedgerAccount → Except DatabaseError Unit
  | [], _ => .ok ()
  | entry :: rest, accounts => do
    checkApplied accounts entry
    checkBalances rest (applyBalance accounts entry)

/-- Everything that can refuse an INSERT of these entries. -/
def checkNewEntries (ledger : Ledger) (entries : List LedgerEntry) : Except DatabaseError Unit := do
  entries.forM ledger.checkEntry
  checkBalances entries ledger.accounts

/-- Inserts the rows, applies them to their accounts and queues `trg_ledger_entries_balanced`. -/
def insertEntries (entries : List LedgerEntry) (ledger : Ledger) : Ledger :=
  { ledger with
    accounts := entries.foldl applyBalance ledger.accounts
    entries := ledger.entries ++ entries
    deferred := ledger.deferred ++ entries.map (·.ledgerTransactionId) }

/-- A transaction with its entries: the whole effect of a posting. -/
def post (transaction : LedgerTransaction) (entries : List LedgerEntry) (ledger : Ledger) : Ledger :=
  (ledger.insertTransaction transaction).insertEntries entries

/-! ## Commit -/

/-- The total of one side of some entries. -/
def sideSum (direction : EntryDirection) (entries : List LedgerEntry) : Int :=
  (entries.map fun entry => if entry.direction = direction then entry.amount else 0).sum

/-- `ledger_check_transaction_balanced`. -/
def checkBalanced (ledger : Ledger) (transactionId : Uuid) : Except DatabaseError Unit :=
  let entries := ledger.entriesOf transactionId
  let amount := (ledger.transactions.find? transactionId).map (·.amount)
  if entries.length < 2 ∨ sideSum .debit entries ≠ sideSum .credit entries ∨
      some (sideSum .debit entries) ≠ amount then
    .error (.raised "ledger_check_transaction_balanced")
  else .ok ()

/-- The queued constraint triggers, at commit. -/
def checkDeferred (ledger : Ledger) : Except DatabaseError Unit :=
  ledger.deferred.forM ledger.checkBalanced

def clearDeferred (ledger : Ledger) : Ledger :=
  { ledger with deferred := [] }

/-! ## Reports -/

/-- `findBalanceDiscrepancies`: accounts whose cached balance is not the sum of their entries. -/
def findBalanceDiscrepancies (ledger : Ledger) : List (Uuid × Int × Int) :=
  ledger.accounts.rows.filterMap fun account =>
    let computed := ((ledger.entriesOn account.id).map fun entry =>
      if entry.direction = account.normalBalance then entry.amount else -entry.amount).sum
    if account.balance ≠ computed then some (account.id, account.balance, computed) else none

/-- `trialBalance`: debit-normal and credit-normal balances of a currency. -/
def trialBalance (ledger : Ledger) (currency : String) : Int × Int :=
  let side (direction : EntryDirection) := ledger.accounts.sum fun account =>
    if account.currency = currency ∧ account.normalBalance = direction then account.balance else 0
  (side .debit, side .credit)

end Ledger

end Finstack
