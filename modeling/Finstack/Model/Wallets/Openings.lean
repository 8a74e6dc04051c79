import Finstack.Foundation.Schedule
import Finstack.Foundation.UniqueIndex
import Finstack.Model.Ledger.Service
import Finstack.Model.Tables
import Mathlib.Data.List.Sort

/-! # Opening wallets and choosing the primary one

`WalletsService.create` and `setPrimary`, statement by statement, for any number of owners and of
calls at once, while an administrator freezes and unfreezes wallets. The unique indexes on the ids of
a wallet's accounts are left out: the accounts are new.
-/

namespace Finstack.Wallets

open Foundation

inductive WalletsPerOwner where
  /-- One wallet per owner. -/
  | single
  /-- A wallet per allowed currency; one of them is the primary wallet. -/
  | multiple
deriving DecidableEq, Repr

structure WalletsConfig where
  walletsPerOwner : WalletsPerOwner
  defaultCurrency : String
  allowedCurrencies : List String

/-! ## Errors -/

def walletNotFoundException : AppException :=
  ⟨"WALLET_NOT_FOUND", "Wallet not found", HttpStatus.notFound⟩

def walletAlreadyExistsException (detail : String) : AppException :=
  ⟨"WALLET_ALREADY_EXISTS", detail, HttpStatus.conflict⟩

def walletNotActiveException : AppException :=
  ⟨"WALLET_NOT_ACTIVE", "The wallet is frozen or closed and cannot move money",
    HttpStatus.unprocessableEntity⟩

def walletCurrencyNotAllowedException (allowed : List String) : AppException :=
  ⟨"WALLET_CURRENCY_NOT_ALLOWED",
    "Wallets can only be opened in: " ++ String.intercalate ", " allowed,
    HttpStatus.unprocessableEntity⟩

def CURRENCY_CONSTRAINTS : List String := ["uq_wallets_user_currency", "uq_wallets_org_currency"]

def PRIMARY_CONSTRAINTS : List String := ["uq_wallets_user_primary", "uq_wallets_org_primary"]

/-! ## Unique indexes -/

def IsPrimary (owner : Owner) (wallet : Wallet) : Bool :=
  wallet.owner = owner ∧ wallet.isPrimary

def HasCurrency (owner : Owner) (currency : String) (wallet : Wallet) : Bool :=
  wallet.owner = owner ∧ wallet.currency = currency

inductive WalletIndex where
  | currency
  | primary
deriving DecidableEq, Repr

namespace WalletIndex

def name : Owner → WalletIndex → String
  | .user _, .currency => "uq_wallets_user_currency"
  | .user _, .primary => "uq_wallets_user_primary"
  | .organization _, .currency => "uq_wallets_org_currency"
  | .organization _, .primary => "uq_wallets_org_primary"

/-- Oldest first: a row is checked against them in this order. -/
def ofOwner : Owner → List WalletIndex
  | .user _ => [.primary, .currency]
  | .organization _ => [.currency, .primary]

/-- The index has an entry for this row. -/
def covers (wallet : Wallet) : WalletIndex → Bool
  | .currency => true
  | .primary => wallet.isPrimary

/-- The rows with the same entry. -/
def matching (wallet : Wallet) : WalletIndex → Wallet → Bool
  | .currency => HasCurrency wallet.owner wallet.currency
  | .primary => IsPrimary wallet.owner

end WalletIndex

/-- What the unique indexes say to a row. -/
inductive IndexCheck where
  | passes
  | waits
  | violates (constraint : String)
deriving DecidableEq, Repr

/-! ## Calls -/

inductive Request where
  | create (owner : Owner) (currency : Option String)
  | setPrimary (owner : Owner) (walletId : Uuid)
  /-- An administrator freezes or unfreezes the wallet. -/
  | setStatus (walletId : Uuid) (status : WalletStatus)
deriving DecidableEq, Repr

/-- An attempt of `insertWallet`. -/
structure Attempt where
  owner : Owner
  currency : String
  isPrimary : Bool
  /-- Another request had created the primary wallet. -/
  retry : Bool
deriving DecidableEq, Repr

/-- The statement a call is at, with what it has read. -/
inductive Pc where
  /-- `existsBy` of `'if-first'`. -/
  | existsPrimary (owner : Owner) (currency : String)
  /-- The inserts of `insertWallet`, with the accounts opened so far. -/
  | opening (attempt : Attempt) (accounts : List Uuid)
  | commitCreate (wallet : Wallet)
  | selecting (owner : Owner) (walletId : Uuid)
  /-- `FOR UPDATE`: the rows still to be locked, and those that were read. -/
  | locking (owner : Owner) (walletId : Uuid) (remaining : List Uuid) (wallets : List Wallet)
  | clearing (owner : Owner) (walletId : Uuid)
  /-- The update that clears, with the rows still to be locked. -/
  | clearingRows (owner : Owner) (walletId : Uuid) (remaining : List Uuid)
  | setting (owner : Owner) (walletId : Uuid)
  | commitPrimary (owner : Owner) (walletId : Uuid)
  | reading (owner : Owner) (walletId : Uuid)
  | updatingStatus (walletId : Uuid) (status : WalletStatus)
  | returned (wallet : Wallet)
  | done
  | threw (error : Err)
  | crashed
deriving DecidableEq, Repr

/-- The call is over. -/
def Pc.ended : Pc → Bool
  | .returned _ | .done | .threw _ | .crashed => true
  | _ => false

/-- Both tables with the ids they ever had, every call, and which rows each has inserted. -/
structure System (ι : Type) where
  wallets : RowStore Uuid Wallet ι
  walletIds : List Uuid
  accounts : RowStore Uuid LedgerAccount ι
  accountIds : List Uuid
  calls : ι → Option (Request × Pc)
  inserted : ι → List Uuid
  opened : ι → List Uuid

/-- `WalletAlreadyExistsException` as `create` throws it. -/
def WalletsConfig.alreadyExists (config : WalletsConfig) (currency : String) : AppException :=
  match config.walletsPerOwner with
  | .single => walletAlreadyExistsException "This user already has a wallet"
  | .multiple => walletAlreadyExistsException ("A " ++ currency ++ " wallet already exists")

/-- What `create` does with what an attempt has thrown. -/
def WalletsConfig.onError (config : WalletsConfig) (attempt : Attempt) (error : Err) : Pc :=
  if isUniqueViolation error CURRENCY_CONSTRAINTS then
    .threw (.app (config.alreadyExists attempt.currency))
  else if attempt.retry then .threw error
  else if isUniqueViolation error PRIMARY_CONSTRAINTS then
    match config.walletsPerOwner with
    | .single => .threw (.app (config.alreadyExists attempt.currency))
    | .multiple => .opening { attempt with isPrimary := false, retry := true } []
  else .threw error

/-- What `insertWallet` asks the ledger for. -/
def accountInput (purpose currency : String) : CreateLedgerAccountInput where
  name := "Wallet " ++ purpose ++ " (" ++ currency ++ ")"
  type := .liability
  currency := currency

def newWallet (id : Uuid) (attempt : Attempt) (available pending reserved : Uuid) : Wallet where
  id := id
  owner := attempt.owner
  currency := attempt.currency
  status := .active
  isPrimary := attempt.isPrimary
  availableAccountId := available
  pendingAccountId := pending
  reservedAccountId := reserved

variable {ι : Type} [DecidableEq ι]

namespace System

def start : System ι :=
  ⟨.start fun _ => none, [], .start fun _ => none, [], fun _ => none, fun _ => [], fun _ => []⟩

def goto (s : System ι) (i : ι) (request : Request) (pc : Pc) : System ι :=
  { s with calls := Function.update s.calls i (some (request, pc)) }

def commit (s : System ι) (i : ι) : System ι :=
  { s with wallets := s.wallets.commit i, accounts := s.accounts.commit i }

def rollback (s : System ι) (i : ι) : System ι :=
  { s with wallets := s.wallets.rollback i, accounts := s.accounts.rollback i }

def write (s : System ι) (i : ι) (id : Uuid) (wallet : Wallet) : System ι :=
  { s with wallets := s.wallets.write i id (some wallet) }

/-- One index after the other. -/
def checkIndexes (s : System ι) (i : ι) (id : Uuid) (wallet : Wallet) :
    List WalletIndex → IndexCheck
  | [] => .passes
  | index :: indexes =>
    if index.covers wallet then
      if s.wallets.Taken (index.matching wallet) s.walletIds i id then
        .violates (index.name wallet.owner)
      else if s.wallets.Waits (index.matching wallet) s.walletIds i id then .waits
      else s.checkIndexes i id wallet indexes
    else s.checkIndexes i id wallet indexes

/-- The rows a statement of `i` finds. -/
def select (s : System ι) (i : ι) (where_ : Wallet → Bool) : List Uuid :=
  s.walletIds.filter fun id => (s.wallets.view i id).any where_

def openAccount (s : System ι) (i : ι) (request : Request) (id : Uuid) (purpose : String)
    (attempt : Attempt) (accounts : List Uuid) : Option (System ι) :=
  if id ∈ s.accountIds then none
  else
    some { s.goto i request (.opening attempt (accounts ++ [id])) with
      accounts := s.accounts.write i id
        (some (LedgerService.newAccount id (accountInput purpose attempt.currency)))
      accountIds := id :: s.accountIds
      opened := Function.update s.opened i (id :: s.opened i) }

def insertWallet (config : WalletsConfig) (s : System ι) (i : ι) (request : Request)
    (attempt : Attempt) (wallet : Wallet) : Option (System ι) :=
  if wallet.id ∈ s.walletIds then none
  else
    match s.checkIndexes i wallet.id wallet (WalletIndex.ofOwner wallet.owner) with
    | .passes =>
      some { (s.write i wallet.id wallet).goto i request (.commitCreate wallet) with
        walletIds := wallet.id :: s.walletIds
        inserted := Function.update s.inserted i (wallet.id :: s.inserted i) }
    | .waits => none
    | .violates constraint =>
      some ((s.rollback i).goto i request
        (config.onError attempt (.database (.uniqueViolation constraint))))

/-- An insert, with the id that the database generates. -/
def insertNext (config : WalletsConfig) (s : System ι) (i : ι) (id : Uuid) (request : Request) :
    Pc → Option (System ι)
  | .opening attempt [] => s.openAccount i request id "available" attempt []
  | .opening attempt [available] => s.openAccount i request id "pending" attempt [available]
  | .opening attempt [available, pending] =>
    s.openAccount i request id "reserved" attempt [available, pending]
  | .opening attempt [available, pending, reserved] =>
    s.insertWallet config i request attempt (newWallet id attempt available pending reserved)
  | _ => none

/-- The rows of `setPrimary` have been read. -/
def selected (s : System ι) (i : ι) (request : Request) (owner : Owner) (walletId : Uuid)
    (wallets : List Wallet) : System ι :=
  match wallets.find? fun wallet => wallet.id = walletId with
  | none => (s.rollback i).goto i request (.threw (.app walletNotFoundException))
  | some target =>
    if target.isPrimary then s.goto i request (.commitPrimary owner walletId)
    else if target.status ≠ .active then
      (s.rollback i).goto i request (.threw (.app walletNotActiveException))
    else s.goto i request (.clearing owner walletId)

/-- The next statement of the call `i`, unless it waits for a lock. -/
def advance (s : System ι) (i : ι) (request : Request) : Pc → Option (System ι)
  | .existsPrimary owner currency =>
    let exists_ := (s.select i (IsPrimary owner)) ≠ []
    some (s.goto i request (.opening ⟨owner, currency, !exists_, false⟩ []))
  | .commitCreate wallet => some ((s.commit i).goto i request (.returned wallet))
  | .selecting owner walletId =>
    let ids := (s.select i fun wallet => wallet.owner = owner).insertionSort (· ≤ ·)
    some (s.goto i request (.locking owner walletId ids []))
  | .locking owner walletId [] wallets => some (s.selected i request owner walletId wallets)
  | .locking owner walletId (id :: remaining) wallets =>
    if s.wallets.Free i id then
      match s.wallets.view i id with
      | none => some (s.goto i request (.locking owner walletId remaining wallets))
      | some wallet =>
        some { s.goto i request (.locking owner walletId remaining (wallets ++ [wallet])) with
          wallets := s.wallets.lock i id }
    else
      none
  | .clearing owner walletId =>
    some (s.goto i request (.clearingRows owner walletId (s.select i (IsPrimary owner))))
  | .clearingRows owner walletId [] => some (s.goto i request (.setting owner walletId))
  | .clearingRows owner walletId (id :: remaining) =>
    if s.wallets.Free i id then
      match s.wallets.view i id with
      | none => some (s.goto i request (.clearingRows owner walletId remaining))
      | some wallet =>
        if IsPrimary owner wallet then
          some ((s.write i id { wallet with isPrimary := false }).goto i request
            (.clearingRows owner walletId remaining))
        else
          some (s.goto i request (.clearingRows owner walletId remaining))
    else
      none
  | .setting owner walletId =>
    match s.wallets.view i walletId with
    | none => some (s.goto i request (.commitPrimary owner walletId))
    | some wallet =>
      match s.checkIndexes i walletId { wallet with isPrimary := true }
          (WalletIndex.ofOwner wallet.owner) with
      | .passes =>
        some ((s.write i walletId { wallet with isPrimary := true }).goto i request
          (.commitPrimary owner walletId))
      | .waits => none
      | .violates constraint =>
        some ((s.rollback i).goto i request
          (.threw (.database (.uniqueViolation constraint))))
  | .commitPrimary owner walletId => some ((s.commit i).goto i request (.reading owner walletId))
  -- `getOwned`
  | .reading owner walletId =>
    match s.wallets.rows walletId with
    | none => some (s.goto i request (.threw (.app walletNotFoundException)))
    | some wallet =>
      if wallet.owner = owner then some (s.goto i request (.returned wallet))
      else some (s.goto i request (.threw (.app walletNotFoundException)))
  | .updatingStatus walletId status =>
    if s.wallets.Free i walletId then
      match s.wallets.view i walletId with
      | none => some (s.goto i request .done)
      | some wallet =>
        some (((s.write i walletId { wallet with status }).commit i).goto i request .done)
    else
      none
  | .opening _ _ | .returned _ | .done | .threw _ | .crashed => none

/-- The first statement of a call. -/
def begin (config : WalletsConfig) (s : System ι) (i : ι) (request : Request) : System ι :=
  match request with
  | .create owner currency =>
    let currency := currency.getD config.defaultCurrency
    if currency ∈ config.allowedCurrencies then
      match config.walletsPerOwner with
      | .single => s.goto i request (.opening ⟨owner, currency, true, false⟩ [])
      | .multiple => s.goto i request (.existsPrimary owner currency)
    else
      s.goto i request
        (.threw (.app (walletCurrencyNotAllowedException config.allowedCurrencies)))
  | .setPrimary owner walletId => s.goto i request (.selecting owner walletId)
  | .setStatus walletId status => s.goto i request (.updatingStatus walletId status)

/-- What the environment decides. -/
inductive Action (ι : Type) where
  | call (i : ι) (request : Request)
  | insert (i : ι) (id : Uuid)
  | advance (i : ι)
  /-- The database does not execute the statement, for example to end a deadlock. -/
  | fail (i : ι) (message : String)
  | crash (i : ι)
deriving DecidableEq, Repr

/-- Where a call is after its statement has failed. -/
def onFailure (config : WalletsConfig) (message : String) : Pc → Pc
  | .opening attempt _ => config.onError attempt (.internal "QueryFailedError" message)
  | _ => .threw (.internal "QueryFailedError" message)

def step (config : WalletsConfig) : Action ι → System ι → Option (System ι)
  | .call i request, s => if s.calls i = none then some (s.begin config i request) else none
  | .insert i id, s =>
    (s.calls i).bind fun (request, pc) => s.insertNext config i id request pc
  | .advance i, s => (s.calls i).bind fun (request, pc) => s.advance i request pc
  | .fail i message, s =>
    (s.calls i).bind fun (request, pc) =>
      if pc.ended then none
      else some ((s.rollback i).goto i request (onFailure config message pc))
  | .crash i, s =>
    (s.calls i).bind fun (request, pc) =>
      if pc.ended then none else some ((s.rollback i).goto i request .crashed)

/-- Everything that can happen in steps that `Admits` lets happen. -/
def Reaches (config : WalletsConfig) (Admits : Action ι → System ι → Prop) :
    System ι → System ι → Prop :=
  Schedule.Reaches (step config) Admits

end System

end Finstack.Wallets
