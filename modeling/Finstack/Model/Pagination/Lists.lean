import Mathlib.Data.Prod.Lex
import Mathlib.Order.Fin.Basic
import Finstack.Foundation.Keyset
import Finstack.Foundation.Table
import Finstack.Model.Admin.Users
import Finstack.Model.Pagination.Cursor

/-! # Lists

`keysetPage` and the three services that page by themselves, and the controllers' part, which turns
cursors into texts and back.
-/

namespace Finstack

open Foundation

/-- What `ORDER BY` and the comparison with a cursor go by. -/
abbrev Position := Int ×ₗ Uuid

def Cursor.position (cursor : Cursor) : Position := toLex (cursor.createdAt.time, cursor.id)

structure PageOptions where
  limit : Nat
  before : Option Cursor

/-! ## Rows in milliseconds -/

/-- The entity needs `id` and `createdAt`. -/
class Paged (T : Type) where
  id : T → Uuid
  createdAt : T → Date

namespace Paged

variable {T : Type} [Paged T]

def cursor (row : T) : Cursor := ⟨createdAt row, id row⟩

def position (row : T) : Position := (cursor row).position

end Paged

/-- One page of `query`, newest first, by (createdAt, id). -/
def keysetPage {T : Type} [Paged T] (query : List T) (options : PageOptions) : Page T Cursor :=
  Foundation.keysetPage Paged.position Cursor.position Paged.cursor options.limit query options.before

namespace LedgerService

structure EntryRow extends LedgerEntry where
  id : Uuid
  createdAt : Date

instance : Keyed EntryRow Uuid := ⟨EntryRow.id⟩

structure LedgerTables where
  entries : Table EntryRow
  transactions : Table LedgerTransaction
  fk_ledger_entries_ledger_transaction : ∀ entry ∈ entries,
    (transactions.find? entry.ledgerTransactionId).isSome

structure AccountEntry where
  id : Uuid
  transactionId : Uuid
  reference : String
  description : String
  direction : EntryDirection
  amount : Int
  currency : String
  createdAt : Date

instance : Paged AccountEntry := ⟨AccountEntry.id, AccountEntry.createdAt⟩

/-- The columns of an entry and of its transaction. -/
def accountEntry (entry : EntryRow) (txn : LedgerTransaction) : AccountEntry where
  id := entry.id
  transactionId := entry.ledgerTransactionId
  reference := txn.reference
  description := txn.description
  direction := entry.direction
  amount := entry.amount
  currency := entry.currency
  createdAt := entry.createdAt

namespace LedgerTables

variable (tables : LedgerTables) (accountId : Uuid)

/-- `WHERE entry.ledgerAccountId = :accountId` -/
def entriesOf : List EntryRow := tables.entries.rows.filter (·.ledgerAccountId = accountId)

/-- `INNER JOIN txn ON txn.id = entry.ledgerTransactionId` -/
def accountEntries : List AccountEntry :=
  (tables.entriesOf accountId).filterMap fun entry =>
    (tables.transactions.find? entry.ledgerTransactionId).map (accountEntry entry)

end LedgerTables

/-- Newest-first entries of an account. -/
def listAccountEntries (tables : LedgerTables) (accountId : Uuid) (options : PageOptions) :
    Page AccountEntry Cursor :=
  Foundation.keysetPage Paged.position Cursor.position Paged.cursor options.limit
    (tables.accountEntries accountId) options.before

end LedgerService

namespace TransactionsService

structure TransactionRow where
  id : Uuid
  userId : Option Uuid
  organizationId : Option Uuid
  counterpartyUserId : Option Uuid
  createdAt : Date

instance : Paged TransactionRow := ⟨TransactionRow.id, TransactionRow.createdAt⟩

instance : Keyed TransactionRow Uuid := ⟨TransactionRow.id⟩

def page (base : List TransactionRow) (options : PageOptions) : Page TransactionRow Cursor :=
  Foundation.keysetPage Paged.position Cursor.position Paged.cursor options.limit base options.before

variable (transactions : Table TransactionRow)

/-- The user's transactions, in both directions. -/
def ofUser (userId : Uuid) : List TransactionRow :=
  transactions.rows.filter fun txn => txn.userId = some userId ∨ txn.counterpartyUserId = some userId

def ofOrganization (organizationId : Uuid) : List TransactionRow :=
  transactions.rows.filter (·.organizationId = some organizationId)

def listForUser (userId : Uuid) (options : PageOptions) : Page TransactionRow Cursor :=
  page (ofUser transactions userId) options

def listForOrganization (organizationId : Uuid) (options : PageOptions) : Page TransactionRow Cursor :=
  page (ofOrganization transactions organizationId) options

end TransactionsService

/-! ## Users -/

/-- A `timestamptz` of full precision, in microseconds since 1970, that a `Date` reaches. -/
structure Timestamp where
  micros : Int
  within : (micros / 1000).natAbs ≤ 8640000000000000

/-- As the driver reads it: a `Date` has no microseconds. -/
def Timestamp.date (timestamp : Timestamp) : Date := ⟨timestamp.micros / 1000, timestamp.within⟩

/-- Lower case, which JavaScript and the database's collation have tables for. -/
structure LowerCase where
  toLowerCase : String → String
  lower : String → String

/-- `text LIKE pattern` -/
def like : List Char → List Char → Bool
  | [], text => text.isEmpty
  | '%' :: pattern, text => text.tails.any fun rest => like pattern rest
  | '_' :: pattern, text =>
    match text with
    | _ :: rest => like pattern rest
    | [] => false
  | '\\' :: c :: pattern, text =>
    match text with
    | c' :: rest => c = c' && like pattern rest
    | [] => false
  | c :: pattern, text =>
    match text with
    | c' :: rest => c = c' && like pattern rest
    | [] => false

namespace UsersService

/-- A row of `users`; the entity's `createdAt` is the date of the column's. -/
structure UserRow where
  id : Uuid
  email : String
  status : Admin.UserStatus
  createdAt : Timestamp

namespace UserRow

def position (user : UserRow) : Position := toLex (user.createdAt.micros, user.id)

def cursor (user : UserRow) : Cursor := ⟨user.createdAt.date, user.id⟩

end UserRow

/-- The parameter `:beforeCreatedAt` as a timestamp, and the id. -/
def bound (cursor : Cursor) : Position := toLex (cursor.createdAt.time * 1000, cursor.id)

instance : Keyed UserRow Uuid := ⟨UserRow.id⟩

structure SearchFilter where
  email : Option String
  status : Option Admin.UserStatus

/-- Escapes LIKE wildcards in user input. -/
def escapeLike (value : String) : String :=
  String.ofList (value.toList.flatMap fun char =>
    if char = '\\' ∨ char = '%' ∨ char = '_' then ['\\', char] else [char])

variable (casing : LowerCase)

/-- `text ILIKE pattern` -/
def ilike (text pattern : String) : Bool :=
  like (casing.lower pattern).toList (casing.lower text).toList

def SearchFilter.selects (filter : SearchFilter) (user : UserRow) : Bool :=
  (match filter.email with
    | some email =>
      email = "" || ilike casing user.email ("%" ++ escapeLike (casing.toLowerCase email) ++ "%")
    | none => true) &&
  match filter.status with
  | some status => user.status = status
  | none => true

/-- The users that the filter selects. -/
def matching (users : Table UserRow) (filter : SearchFilter) : List UserRow :=
  users.rows.filter (filter.selects casing)

/-- Admin search: email contains `email`, newest first, keyset-paginated. -/
def search (users : Table UserRow) (filter : SearchFilter) (options : PageOptions) : Page UserRow Cursor :=
  Foundation.keysetPage UserRow.position bound UserRow.cursor options.limit
    (matching casing users filter) options.before

end UsersService

/-! ## Endpoints -/

/-- `query.cursor ? decodeCursor(query.cursor) : undefined` -/
def beforeOf (engine : Engine) : Option String → Except Err (Option Cursor)
  | none => .ok none
  | some cursor => if cursor = "" then .ok none else (decodeCursor engine cursor).map some

/-- `nextCursor` is the text of `page.next`. -/
def listEndpoint {T : Type} (engine : Engine) (list : PageOptions → Page T Cursor) (limit : Nat)
    (cursor : Option String) : Except Err (Page T String) := do
  let before ← beforeOf engine cursor
  let page := list ⟨limit, before⟩
  pure ⟨page.items, page.next.map encodeCursor⟩

end Finstack
