import Finstack.Model.Ledger.Posting
import Finstack.Model.Tables

/-! # What wallets post

The posting that each method of `WalletsService` hands to the ledger, given the wallets and the
platform's accounts that it has read.
-/

namespace Finstack

structure MoneyMovement where
  /-- Minor units, strictly positive. -/
  amount : Int
  reference : String
  description : String
deriving DecidableEq, Repr

inductive WalletBalance where
  | available
  | pending
  | reserved
deriving DecidableEq, Repr

def balanceAccount (wallet : Wallet) : WalletBalance → Uuid
  | .available => wallet.availableAccountId
  | .pending => wallet.pendingAccountId
  | .reserved => wallet.reservedAccountId

namespace WalletsService

/-- One amount from the debited account to the credited one. -/
def move (currency : String) (movement : MoneyMovement) (debited credited : Uuid) : PostingInput where
  reference := movement.reference
  description := movement.description
  currency := currency
  entries := [⟨debited, .debit, movement.amount⟩, ⟨credited, .credit, movement.amount⟩]

/-- External funds in: external clearing -> wallet. -/
def depositWithin (wallet : Wallet) (clearing : Uuid) (movement : MoneyMovement)
    (into : WalletBalance := .available) : PostingInput :=
  move wallet.currency movement clearing (balanceAccount wallet into)

/-- Wallet to wallet in the same currency. -/
def transferWithin (source destination : Wallet) (movement : MoneyMovement) : PostingInput :=
  move source.currency movement source.availableAccountId destination.availableAccountId

/-- Puts funds on hold: available -> reserved. -/
def reserveWithin (wallet : Wallet) (movement : MoneyMovement) : PostingInput :=
  move wallet.currency movement wallet.availableAccountId wallet.reservedAccountId

/-- Releases a hold: reserved -> available. -/
def releaseWithin (wallet : Wallet) (movement : MoneyMovement) : PostingInput :=
  move wallet.currency movement wallet.reservedAccountId wallet.availableAccountId

/-- Settlement: pending -> available. -/
def makeAvailableWithin (wallet : Wallet) (movement : MoneyMovement) : PostingInput :=
  move wallet.currency movement wallet.pendingAccountId wallet.availableAccountId

/-- Entries between pending/available and reserved; `side` applies to the sources. -/
def splitEntries (wallet : Wallet) (amount fromPending : Int) (side : EntryDirection) :
    List PostingEntry :=
  let fromAvailable := amount - fromPending
  (if fromPending > 0 then [⟨wallet.pendingAccountId, side, fromPending⟩] else []) ++
    (if fromAvailable > 0 then [⟨wallet.availableAccountId, side, fromAvailable⟩] else []) ++
    [⟨wallet.reservedAccountId, side.opposite, amount⟩]

/-- A hold of which `fromPending` comes out of pending and the rest out of available. -/
def reserveSplitWithin (wallet : Wallet) (movement : MoneyMovement) (fromPending : Int) :
    PostingInput where
  reference := movement.reference
  description := movement.description
  currency := wallet.currency
  entries := splitEntries wallet movement.amount fromPending .debit

/-- Undoes `reserveSplitWithin`. -/
def releaseSplitWithin (wallet : Wallet) (movement : MoneyMovement) (fromPending : Int) :
    PostingInput where
  reference := movement.reference
  description := movement.description
  currency := wallet.currency
  entries := splitEntries wallet movement.amount fromPending .credit

/-- Collects a fee from one of the wallet's balances into fee revenue. -/
def collectFeeWithin (wallet : Wallet) (revenue : Uuid) (balance : WalletBalance)
    (movement : MoneyMovement) : PostingInput :=
  move wallet.currency movement (balanceAccount wallet balance) revenue

/-- Gives a collected fee back to the wallet's available balance. -/
def refundFeeWithin (wallet : Wallet) (revenue : Uuid) (movement : MoneyMovement) : PostingInput :=
  move wallet.currency movement revenue wallet.availableAccountId

end WalletsService

end Finstack
