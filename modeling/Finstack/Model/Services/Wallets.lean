import Finstack.Model.Services.Fx
import Finstack.Model.Services.Transactions
import Finstack.Model.Wallets.Movements

/-! # Wallets

`WalletsService` on the database: how wallets are opened, and every movement of money, with the
locks each takes before it posts.
-/

namespace Finstack.Services

open Foundation

namespace WalletsService

def walletNotFoundException : Err := .app Wallets.walletNotFoundException

/-- A wallet by id, as it is committed. -/
def getWallet (walletId : Uuid) : DbTxn Wallet := do
  let found ← Txn.queryCommitted fun db => db.wallets.find? walletId
  orThrow walletNotFoundException found

def findOwned (owner : Owner) (walletId : Uuid) : DbTxn Wallet := do
  let found ← Txn.queryCommitted fun db => db.wallets.find? walletId
  orThrow walletNotFoundException (found.filter (·.owner = owner))

def findWallet (owner : Owner) (currency : String) : DbTxn (Option Wallet) :=
  Txn.queryCommitted fun db => db.findWallet owner currency

def findPrimaryWallet (owner : Owner) : DbTxn (Option Wallet) :=
  Txn.queryCommitted fun db => db.findPrimaryWallet owner

def clearingAccount (id : Uuid) (currency : String) : DbTxn LedgerAccount :=
  LedgerService.ensureSystemAccount id (SystemAccounts.externalClearing currency)

/-! ## Opening a wallet -/

/-- A wallet and its three ledger accounts; `primary` is none for "if it is the first". -/
def insertWallet (fresh : Fresh) (owner : Owner) (currency : String) (primary : Option Bool) :
    DbTxn Wallet := inTransaction do
  let isPrimary ← match primary with
    | some isPrimary => pure isPrimary
    | none => Txn.query fun db => (db.findPrimaryWallet owner).isNone
  let account := fun (id : Uuid) (purpose : String) =>
    LedgerService.createAccount id (Wallets.accountInput purpose currency)
  let available ← account (fresh 0) "available"
  let pending ← account (fresh 1) "pending"
  let reserved ← account (fresh 2) "reserved"
  let wallet : Wallet := {
    id := fresh 3
    owner := owner
    currency := currency
    status := .active
    isPrimary := isPrimary
    availableAccountId := available.id
    pendingAccountId := pending.id
    reservedAccountId := reserved.id }
  save (Db.walletLocks wallet) (Db.checkNewWallet wallet) (Db.onWallets (·.insert wallet))
  pure wallet

/-! ## Locks -/

/-- `SELECT ... ORDER BY id FOR SHARE`, row by row. -/
def lockRows : List Uuid → DbTxn (List (Option Wallet))
  | [] => pure []
  | id :: rest => do
    let wallet ← Txn.select [.wallet id true] fun db => db.wallets.find? id
    let wallets ← lockRows rest
    pure (wallet :: wallets)

/-- Blocks a concurrent status change until the posting commits, and vice versa, without
serialising postings to each other. -/
def lockActiveWallets (walletIds : List Uuid) : DbTxn Unit := do
  let rows ← lockRows (LedgerService.lockOrder walletIds)
  if (rows.filterMap id).any fun wallet => wallet.status ≠ .active then
    Txn.throw (.app Wallets.walletNotActiveException)
  else pure ()

/-! ## Movements of their own -/

def post (id : Uuid) (walletIds : List Uuid) (input : PostingInput) : DbTxn PostedTransaction :=
  LedgerService.post id input (lockActiveWallets walletIds)

/-- External funds in. -/
def deposit (fresh : Fresh) (walletId : Uuid) (movement : MoneyMovement) :
    DbTxn PostedTransaction := do
  let wallet ← getWallet walletId
  let clearing ← clearingAccount (fresh 0) wallet.currency
  post (fresh 1) [walletId] (Finstack.WalletsService.depositWithin wallet clearing.id movement)

/-- Funds out to an external destination. -/
def withdraw (fresh : Fresh) (walletId : Uuid) (movement : MoneyMovement) :
    DbTxn PostedTransaction := do
  let wallet ← getWallet walletId
  let clearing ← clearingAccount (fresh 0) wallet.currency
  post (fresh 1) [walletId]
    (Finstack.WalletsService.move wallet.currency movement wallet.availableAccountId clearing.id)

def bothWalletsException : Err := currencyMismatchException "Both wallets must use the same currency"

/-- Wallet to wallet in the same currency. -/
def transfer (fresh : Fresh) (fromWalletId toWalletId : Uuid) (movement : MoneyMovement) :
    DbTxn PostedTransaction := do
  let source ← getWallet fromWalletId
  let destination ← getWallet toWalletId
  if source.currency ≠ destination.currency then Txn.throw bothWalletsException
  else
    post (fresh 0) [fromWalletId, toWalletId]
      (Finstack.WalletsService.transferWithin source destination movement)

/-- Puts funds on hold. -/
def reserve (fresh : Fresh) (walletId : Uuid) (movement : MoneyMovement) :
    DbTxn PostedTransaction := do
  let wallet ← getWallet walletId
  post (fresh 0) [walletId] (Finstack.WalletsService.reserveWithin wallet movement)

/-- Releases a hold. -/
def release (fresh : Fresh) (walletId : Uuid) (movement : MoneyMovement) :
    DbTxn PostedTransaction := do
  let wallet ← getWallet walletId
  post (fresh 0) [walletId] (Finstack.WalletsService.releaseWithin wallet movement)

/-! ## Movements inside the caller's transaction -/

def depositWithin (fresh : Fresh) (walletId : Uuid) (movement : MoneyMovement)
    (into : WalletBalance) : DbTxn PostedTransaction := do
  let wallet ← getWallet walletId
  let clearing ← clearingAccount (fresh 0) wallet.currency
  lockActiveWallets [walletId]
  LedgerService.postWithin (fresh 1)
    (Finstack.WalletsService.depositWithin wallet clearing.id movement into)

def transferWithin (id : Uuid) (source destination : Wallet) (movement : MoneyMovement) :
    DbTxn PostedTransaction := do
  if source.currency ≠ destination.currency then Txn.throw bothWalletsException
  else
    lockActiveWallets [source.id, destination.id]
    LedgerService.postWithin id
      (Finstack.WalletsService.transferWithin source destination movement)

/-- Requires an active wallet. -/
def reserveWithin (id walletId : Uuid) (movement : MoneyMovement) : DbTxn PostedTransaction := do
  lockActiveWallets [walletId]
  let wallet ← getWallet walletId
  LedgerService.postWithin id (Finstack.WalletsService.reserveWithin wallet movement)

/-- Works on frozen wallets too: returning held funds must never be blocked. -/
def releaseWithin (id walletId : Uuid) (movement : MoneyMovement) : DbTxn PostedTransaction := do
  let wallet ← getWallet walletId
  LedgerService.postWithin id (Finstack.WalletsService.releaseWithin wallet movement)

/-- Works on frozen wallets too: the money stays in the wallet. -/
def makeAvailableWithin (id walletId : Uuid) (movement : MoneyMovement) :
    DbTxn PostedTransaction := do
  let wallet ← getWallet walletId
  LedgerService.postWithin id (Finstack.WalletsService.makeAvailableWithin wallet movement)

def reserveSplitWithin (id walletId : Uuid) (movement : MoneyMovement) (fromPending : Int) :
    DbTxn PostedTransaction := do
  lockActiveWallets [walletId]
  let wallet ← getWallet walletId
  LedgerService.postWithin id
    (Finstack.WalletsService.reserveSplitWithin wallet movement fromPending)

def releaseSplitWithin (id walletId : Uuid) (movement : MoneyMovement) (fromPending : Int) :
    DbTxn PostedTransaction := do
  let wallet ← getWallet walletId
  LedgerService.postWithin id
    (Finstack.WalletsService.releaseSplitWithin wallet movement fromPending)

def revenueAccount (id : Uuid) (currency : String) : DbTxn LedgerAccount :=
  LedgerService.ensureSystemAccount id (SystemAccounts.feeRevenue currency)

/-- Collects a fee from one of the wallet's balances; it takes no lock of its own. -/
def collectFeeWithin (fresh : Fresh) (walletId : Uuid) (balance : WalletBalance)
    (movement : MoneyMovement) : DbTxn PostedTransaction := do
  let wallet ← getWallet walletId
  let revenue ← revenueAccount (fresh 0) wallet.currency
  LedgerService.postWithin (fresh 1)
    (Finstack.WalletsService.collectFeeWithin wallet revenue.id balance movement)

/-- Gives a collected fee back to the available balance. -/
def refundFeeWithin (fresh : Fresh) (walletId : Uuid) (movement : MoneyMovement) :
    DbTxn PostedTransaction := do
  let wallet ← getWallet walletId
  let revenue ← revenueAccount (fresh 0) wallet.currency
  LedgerService.postWithin (fresh 1)
    (Finstack.WalletsService.refundFeeWithin wallet revenue.id movement)

/-! ## Conversions -/

open Fx (ConversionResult)

/-- The quote converts into the wallet's currency; the clearing account the money comes from. -/
def prepareConversionDeposit (id walletId quoteId : Uuid) : DbTxn (Wallet × LedgerAccount) := do
  let wallet ← getWallet walletId
  let quote ← FxService.getQuote quoteId
  if quote.targetCurrency ≠ wallet.currency then
    Txn.throw (currencyMismatchException
      s!"The quote converts into {quote.targetCurrency}, but the wallet holds {wallet.currency}")
  else
    let clearing ← clearingAccount id quote.sourceCurrency
    pure (wallet, clearing)

structure ConversionDeposit where
  quoteId : Uuid
  reference : String
  description : String

def conversionInput (wallet : Wallet) (clearing : LedgerAccount) (input : ConversionDeposit)
    (into : WalletBalance) : ConvertInput where
  quoteId := input.quoteId
  reference := input.reference
  description := input.description
  sourceDebitAccountId := clearing.id
  targetCreditAccountId := balanceAccount wallet into

def depositWithConversion (fresh : Fresh) (walletId : Uuid) (input : ConversionDeposit) :
    DbTxn ConversionResult := do
  let (wallet, clearing) ← prepareConversionDeposit (fresh 5) walletId input.quoteId
  FxService.convert fresh (conversionInput wallet clearing input .available)
    (lockActiveWallets [walletId])

def depositWithConversionWithin (fresh : Fresh) (walletId : Uuid) (input : ConversionDeposit)
    (into : WalletBalance) : DbTxn ConversionResult := do
  let (wallet, clearing) ← prepareConversionDeposit (fresh 5) walletId input.quoteId
  FxService.convertWithin fresh (conversionInput wallet clearing input into)
    (lockActiveWallets [walletId])

def walletsMismatchException (quote : FxQuote) (source destination : Wallet) : Err :=
  currencyMismatchException (s!"The quote converts {quote.sourceCurrency} to " ++
    s!"{quote.targetCurrency}, but the wallets hold {source.currency} and {destination.currency}")

/-- Between two of the owner's own wallets, at a quote the user obtained. -/
def convertBetweenWallets (fresh : Fresh) (owner : Owner) (fromWalletId toWalletId : Uuid)
    (input : ConversionDeposit) : DbTxn ConversionResult := do
  let source ← findOwned owner fromWalletId
  let destination ← findOwned owner toWalletId
  let quote ← FxService.getQuote input.quoteId (some (ownerUserId owner))
  if quote.sourceCurrency ≠ source.currency ∨ quote.targetCurrency ≠ destination.currency then
    Txn.throw (walletsMismatchException quote source destination)
  else
    FxService.convert fresh {
      quoteId := quote.id
      userId := some (ownerUserId owner)
      reference := input.reference
      description := input.description
      sourceDebitAccountId := source.availableAccountId
      targetCreditAccountId := destination.availableAccountId }
      (lockActiveWallets [source.id, destination.id])

/-! ## Status -/

/-- Frozen wallets can't send money; held funds can still be released. -/
def setStatus (walletId : Uuid) (status : WalletStatus) : DbTxn Unit :=
  Txn.execute [.wallet walletId false]
    (Db.onWallets (·.modify walletId fun wallet => { wallet with status := status }))

end WalletsService

namespace AdminService

def invalidStatusChangeException (detail : String) : Err :=
  .app ⟨"INVALID_STATUS_CHANGE", detail, HttpStatus.conflict⟩

/-- The status an administrator can give a wallet. -/
inductive WalletStatusChange where
  | active
  | frozen
deriving DecidableEq, Repr

def WalletStatusChange.status : WalletStatusChange → WalletStatus
  | .active => .active
  | .frozen => .frozen

def WalletStatusChange.text : WalletStatusChange → String
  | .active => "active"
  | .frozen => "frozen"

/-- Freezing stops money leaving the wallet; closed wallets can't be changed. -/
def setWalletStatus (walletId : Uuid) (change : WalletStatusChange) : DbTxn Unit := do
  let wallet ← WalletsService.getWallet walletId
  if wallet.status = .closed then
    Txn.throw (invalidStatusChangeException "Closed wallets cannot change")
  else if wallet.status = change.status then
    Txn.throw (invalidStatusChangeException s!"The wallet is already {change.text}")
  else inTransaction (WalletsService.setStatus walletId change.status)

end AdminService

end Finstack.Services
