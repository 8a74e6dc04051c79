import Finstack.Model.Database
import Finstack.Model.Ledger.Posting
import Mathlib.Data.List.Sort

/-! # The ledger service

The only way money moves. Every posting is balanced, atomic, idempotent by reference, and
serialised per account with row locks.
-/

namespace Finstack

open Foundation

/-! ## What it throws -/

def insufficientFundsException : Err :=
  .app ⟨"INSUFFICIENT_FUNDS", "Insufficient funds", HttpStatus.unprocessableEntity⟩

def currencyMismatchException
    (detail : String := "All accounts in a posting must share its currency") : Err :=
  .app ⟨"CURRENCY_MISMATCH", detail, HttpStatus.unprocessableEntity⟩

/-- The reference was already used for a different posting. -/
def ledgerReferenceConflictException : Err :=
  .app ⟨"LEDGER_REFERENCE_CONFLICT", "This reference was already used for a different transaction",
    HttpStatus.conflict⟩

def transactionAlreadyReversedException : Err :=
  .app ⟨"TRANSACTION_ALREADY_REVERSED", "This transaction has already been reversed",
    HttpStatus.conflict⟩

def ledgerAccountNotFoundError (ids : List Uuid) : Err :=
  let list := String.intercalate ", " (ids.map uuidText)
  .internal "LedgerAccountNotFoundError" s!"Ledger account(s) not found: {list}"

structure PostedTransaction where
  transaction : LedgerTransaction
  entries : List LedgerEntry
  /-- True when the reference had already been posted and nothing changed. -/
  replayed : Bool
deriving DecidableEq, Repr

namespace LedgerService

/-! ## Accounts -/

/-- The row of a new account. -/
def newAccount (id : Uuid) (input : CreateLedgerAccountInput) : LedgerAccount where
  id := id
  code := input.code
  name := input.name
  type := input.type
  normalBalance := normalBalanceFor input.type
  currency := input.currency
  balance := 0
  allowNegativeBalance := input.allowNegativeBalance

/-- The keys an account row takes. -/
def accountLocks (account : LedgerAccount) : List RowLock :=
  .account account.id ::
    match account.code with
    | some code => [.accountCode code]
    | none => []

def createAccount (id : Uuid) (input : CreateLedgerAccountInput) : DbTxn LedgerAccount := do
  let account := newAccount id input
  Txn.statement (accountLocks account) fun db =>
    databaseCheck (db.ledger.checkNewAccount account) (Db.onLedger (Ledger.insertAccount account))
  pure account

/-- `INSERT ... ON CONFLICT DO NOTHING`. -/
def insertOrIgnore (account : LedgerAccount) (db : Db) : Except Err (Unit × (Db → Db)) :=
  match db.ledger.checkNewAccount account with
  | .error (.uniqueViolation _) => .ok ((), id)
  | result => databaseCheck result (Db.onLedger (Ledger.insertAccount account))

/-- Get-or-create a system account by its stable code. -/
def ensureSystemAccount (id : Uuid) (definition : SystemAccounts.Definition) :
    DbTxn LedgerAccount := do
  let account := newAccount id {
    name := definition.name
    type := definition.type
    currency := definition.currency
    code := some definition.code
    allowNegativeBalance := definition.allowNegativeBalance }
  Txn.separately (accountLocks account) (insertOrIgnore account)
  let found ← Txn.queryCommitted fun db => db.ledger.findAccountByCode definition.code
  orFail "LedgerAccount" found

/-! ## Posting -/

/-- `SELECT ... FOR UPDATE` locks the rows one by one, in the statement's order. -/
def lockRows : List Uuid → DbTxn (List (Option LedgerAccount))
  | [] => pure []
  | id :: rest => do
    let account ← Txn.select [.account id] fun db => db.ledger.accounts.find? id
    let accounts ← lockRows rest
    pure (account :: accounts)

/-- The distinct ids in id order: concurrent postings queue up instead of deadlocking. -/
def lockOrder (ids : List Uuid) : List Uuid :=
  ids.dedup.insertionSort (· ≤ ·)

def lockAccounts (ids : List Uuid) : DbTxn (List LedgerAccount) := do
  let unique := lockOrder ids
  let rows ← lockRows unique
  let accounts := rows.filterMap id
  if accounts.length ≠ unique.length then
    Txn.throw (ledgerAccountNotFoundError
      (unique.filter fun id => ¬ accounts.any fun account => account.id = id))
  else
    pure accounts

def assertCurrency (accounts : List LedgerAccount) (currency : String) : Except Err Unit :=
  if accounts.any fun account => account.currency ≠ currency then
    .error currencyMismatchException
  else .ok ()

/-- What the entries together do to an account's balance. -/
def delta (account : LedgerAccount) (entries : List PostingEntry) : Int :=
  (entries.map fun entry =>
    if entry.accountId = account.id then account.signed entry.direction entry.amount else 0).sum

/-- Checked against the locked (current) balances, so it cannot be raced. -/
def assertSufficientFunds (accounts : List LedgerAccount) (input : PostingInput) :
    Except Err Unit :=
  match input.entries.find? fun entry => ¬ accounts.any fun account => account.id = entry.accountId with
  | some entry => .error (ledgerAccountNotFoundError [entry.accountId])
  | none =>
    if accounts.any fun account =>
        ¬ account.allowNegativeBalance && account.balance + delta account input.entries < 0 then
      .error insufficientFundsException
    else .ok ()

/-- The unique index on `reversal_of_id` is the backstop for concurrent reversals. -/
def assertNotReversed (transactionId : Uuid) : DbTxn Unit := do
  let reversal ← Txn.query fun db => db.ledger.findReversalOf transactionId
  if reversal.isSome then Txn.throw transactionAlreadyReversedException else pure ()

/-- The stored entries, as the posting that made them gave them. -/
def postingEntry (entry : LedgerEntry) : PostingEntry :=
  ⟨entry.ledgerAccountId, entry.direction, entry.amount⟩

/-- What a replay answers, given what is stored. -/
def replayResult (input : PostingInput) (transaction : LedgerTransaction)
    (entries : List LedgerEntry) : Except Err PostedTransaction :=
  if transaction.currency ≠ input.currency ∨ transaction.description ≠ input.description ∨
      entriesFingerprint (entries.map postingEntry) ≠ entriesFingerprint input.entries then
    .error ledgerReferenceConflictException
  else if entries.isEmpty then
    .error (invalidPostingError "existing transaction has no entries")
  else .ok ⟨transaction, entries, true⟩

def replay (manager : Manager) (input : PostingInput) : DbTxn PostedTransaction := do
  let found ← manager.query fun db => db.ledger.findTransactionByReference input.reference
  let transaction ← orFail "LedgerTransaction" found
  let entries ← manager.query fun db => db.ledger.entriesOf transaction.id
  Prog.ret (replayResult input transaction entries)

def newTransaction (id : Uuid) (input : PostingInput) (amount : Int) : LedgerTransaction where
  id := id
  reference := input.reference
  description := input.description
  currency := input.currency
  amount := amount
  reversalOfId := input.reversalOfId

@[simp] theorem newTransaction_id (id : Uuid) (input : PostingInput) (amount : Int) :
    (newTransaction id input amount).id = id := rfl

@[simp] theorem newTransaction_reference (id : Uuid) (input : PostingInput) (amount : Int) :
    (newTransaction id input amount).reference = input.reference := rfl

def newEntries (transaction : LedgerTransaction) (entries : List PostingEntry) : List LedgerEntry :=
  entries.map fun entry =>
    ⟨transaction.id, entry.accountId, entry.direction, entry.amount, transaction.currency⟩

/-- The keys a transaction row takes; a reversal also shares its original. -/
def transactionLocks (transaction : LedgerTransaction) : List RowLock :=
  .ledgerTransaction transaction.id false :: .ledgerReference transaction.reference ::
    match transaction.reversalOfId with
    | some original => [.ledgerReversal original, .ledgerTransaction original true]
    | none => []

@[simp] theorem map_postingEntry_newEntries (transaction : LedgerTransaction)
    (entries : List PostingEntry) :
    (newEntries transaction entries).map postingEntry = entries := by
  simp [newEntries, postingEntry, Function.comp_def]

def saveTransaction (transaction : LedgerTransaction) : DbTxn Unit :=
  Txn.statement (transactionLocks transaction) fun db =>
    databaseCheck (db.ledger.checkNewTransaction transaction)
      (Db.onLedger (Ledger.insertTransaction transaction))

/-- The rows an INSERT of entries touches: its transaction's and, through the balance trigger, its
accounts'. -/
def entryLocks (transaction : LedgerTransaction) (entries : List LedgerEntry) : List RowLock :=
  .ledgerTransaction transaction.id false :: entries.map fun entry => .account entry.ledgerAccountId

/-- Account balances are updated by a database trigger on insert. -/
def saveEntries (transaction : LedgerTransaction) (entries : List LedgerEntry) : DbTxn Unit :=
  Txn.statement (entryLocks transaction entries) fun db =>
    databaseCheck (db.ledger.checkNewEntries entries) (Db.onLedger (Ledger.insertEntries entries))

/-- What follows once the reference has been found unused. -/
def postNew (id : Uuid) (input : PostingInput) (amount : Int) : DbTxn PostedTransaction := do
  input.reversalOfId.forM assertNotReversed
  let accounts ← lockAccounts (input.entries.map (·.accountId))
  check (assertCurrency accounts input.currency)
  check (assertSufficientFunds accounts input)
  let transaction := newTransaction id input amount
  saveTransaction transaction
  let entries := newEntries transaction input.entries
  saveEntries transaction entries
  pure ⟨transaction, entries, false⟩

/-- Posts inside a caller-owned transaction. The caller handles unique-violation races on
`reference`. -/
def postWithin (id : Uuid) (input : PostingInput) : DbTxn PostedTransaction := do
  let amount ← Prog.ret (validatePosting input)
  let existing ← Txn.query fun db => db.ledger.findTransactionByReference input.reference
  if existing.isSome then replay .transaction input else postNew id input amount

/-- What `post` does with an error of its transaction. -/
def recoverPost (input : PostingInput) (error : Err) : DbTxn PostedTransaction :=
  if isUniqueViolation error ["uq_ledger_transactions_reference"] then
    replay .dataSource input
  else if isUniqueViolation error ["uq_ledger_transactions_reversal_of_id"] then
    Txn.throw transactionAlreadyReversedException
  else Txn.throw error

/-- Posts a balanced transaction in its own database transaction; `beforePost` runs inside it,
before the ledger is touched. -/
def post (id : Uuid) (input : PostingInput) (beforePost : DbTxn Unit := pure ()) :
    DbTxn PostedTransaction := do
  let _ ← Prog.ret (validatePosting input)
  Txn.tryCatch (inTransaction do
    beforePost
    postWithin id input) (recoverPost input)

/-- The mirror image of stored entries. -/
def mirrorEntries (entries : List LedgerEntry) : List PostingEntry :=
  entries.map fun entry => ⟨entry.ledgerAccountId, entry.direction.opposite, entry.amount⟩

/-- Posts the mirror image of a transaction. -/
def reverse (id transactionId : Uuid) (reference description : String) :
    DbTxn PostedTransaction := do
  let found ← Txn.queryCommitted fun db => db.ledger.transactions.find? transactionId
  let original ← orFail "LedgerTransaction" found
  let entries ← Txn.queryCommitted fun db => db.ledger.entriesOf transactionId
  post id {
    reference := reference
    description := description
    currency := original.currency
    reversalOfId := some original.id
    entries := mirrorEntries entries }

end LedgerService

end Finstack
