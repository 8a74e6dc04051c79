import Finstack.Foundation.Outcomes
import Finstack.Model.Services.Checkout
import Finstack.Model.Services.Transfers

/-! # What moves money without touching the records

The movements of money, the fees and the limits read and write much, but not a transaction, a
payment or a payout: what a caller has recorded is as it was.
-/

namespace Finstack

open Foundation Txn Prog

/-- The rows that say what an operation is. -/
def Db.records (db : Db) : Table Transaction × Table Payment × Table Payout :=
  (db.transactions, db.payments, db.payouts)

theorem records_transactions {db db' : Db} (same : db.records = db'.records) :
    db.transactions = db'.transactions := congrArg (·.1) same

theorem records_payments {db db' : Db} (same : db.records = db'.records) :
    db.payments = db'.payments := congrArg (·.2.1) same

theorem records_payouts {db db' : Db} (same : db.records = db'.records) :
    db.payouts = db'.payouts := congrArg (·.2.2) same

@[simp] theorem records_onLedger (change : Ledger → Ledger) (db : Db) :
    (db.onLedger change).records = db.records := rfl

/-- A statement that writes, behind a check, what is none of the records. -/
theorem same_of_databaseCheck {result : Except DatabaseError Unit} {before write : Db → Db} {a : Unit}
    (done : databaseCheck result before = .ok (a, write)) : write = before := by
  cases result with
  | error e => simp [databaseCheck] at done
  | ok u =>
    simp only [databaseCheck, Except.ok.injEq, Prod.mk.injEq] at done
    exact done.2.symm

theorem quiet_check {result : Except Err Unit} : Quiet Db.records (check result) := quiet_ret

theorem quiet_orFail {α : Type} {entity : String} {found : Option α} :
    Quiet Db.records (orFail entity found) := by
  cases found <;> trivial

theorem quiet_orThrow {α : Type} {e : Err} {found : Option α} :
    Quiet Db.records (orThrow e found) := by
  cases found <;> trivial

theorem quiet_manager {α : Type} {manager : Manager} {read : Db → α} :
    Quiet Db.records (manager.query read) := by
  cases manager
  · exact quiet_query
  · exact quiet_queryCommitted

/-! ## The ledger -/

namespace LedgerService

theorem quiet_ledgerStatement {locks : List RowLock} {result : Db → Except DatabaseError Unit}
    {change : Ledger → Ledger} : Quiet Db.records
      (Txn.statement locks fun db => databaseCheck (result db) (Db.onLedger change)) := by
  refine quiet_statement fun view a write done db => ?_
  rw [same_of_databaseCheck done]
  rfl

theorem quiet_deferredConstraints : Quiet Db.records deferredConstraints := quiet_ledgerStatement

theorem quiet_ensureSystemAccount (id : Uuid) (definition : SystemAccounts.Definition) :
    Quiet Db.records (ensureSystemAccount id definition) := by
  refine quiet_bind (quiet_separately fun view a write done db => ?_) fun _ =>
    quiet_bind quiet_queryCommitted fun _ => quiet_orFail
  unfold insertOrIgnore at done
  split at done
  · obtain ⟨-, rfl⟩ := Prod.mk.inj (Except.ok.inj done)
    rfl
  · rw [same_of_databaseCheck done]
    rfl

theorem quiet_lockRows (ids : List Uuid) : Quiet Db.records (lockRows ids) := by
  induction ids with
  | nil => exact quiet_pure
  | cons id rest ih =>
    exact quiet_bind quiet_select fun _ => quiet_bind ih fun _ => quiet_pure

theorem quiet_lockAccounts (ids : List Uuid) : Quiet Db.records (lockAccounts ids) := by
  refine quiet_bind (quiet_lockRows _) fun rows => ?_
  dsimp only
  split_ifs
  · exact quiet_throw
  · exact quiet_pure

theorem quiet_assertNotReversed (id : Uuid) : Quiet Db.records (assertNotReversed id) := by
  refine quiet_bind quiet_query fun reversal => ?_
  split_ifs
  · exact quiet_throw
  · exact quiet_pure

theorem quiet_replay (manager : Manager) (input : PostingInput) :
    Quiet Db.records (replay manager input) :=
  quiet_bind quiet_manager fun _ => quiet_bind quiet_orFail fun _ =>
    quiet_bind quiet_manager fun _ => quiet_ret

theorem quiet_postNew (id : Uuid) (input : PostingInput) (amount : Int) :
    Quiet Db.records (postNew id input amount) := by
  refine quiet_bind ?_ fun _ => quiet_bind (quiet_lockAccounts _) fun accounts =>
    quiet_bind quiet_check fun _ => quiet_bind quiet_check fun _ =>
      quiet_bind quiet_ledgerStatement fun _ => quiet_bind quiet_ledgerStatement fun _ => quiet_pure
  cases input.reversalOfId with
  | none => exact quiet_pure
  | some original => exact quiet_assertNotReversed original

theorem quiet_postWithin (id : Uuid) (input : PostingInput) :
    Quiet Db.records (postWithin id input) := by
  refine quiet_bind quiet_ret fun amount => quiet_bind quiet_query fun existing => ?_
  split_ifs
  · exact quiet_replay _ input
  · exact quiet_postNew id input amount

end LedgerService

/-! ## Limits and wallets -/

namespace Services

theorem quiet_assertWithinLimitsWithin (input : LimitInput) :
    Quiet Db.records (LimitsService.assertWithinLimitsWithin input) := by
  have rule : ∀ organizationId, Quiet Db.records (LimitsService.ruleOf input organizationId) :=
    fun _ => quiet_queryCommitted
  have used : ∀ since, Quiet Db.records (LimitsService.usageWithin input since) :=
    fun _ => quiet_query
  refine quiet_bind ?_ fun active => ?_
  · unfold LimitsService.activeRule
    split
    · refine quiet_bind (rule _) fun own => ?_
      split_ifs
      · exact quiet_pure
      · exact rule none
    · exact rule none
  · cases active with
    | none => exact quiet_pure
    | some active =>
      refine quiet_bind quiet_check fun _ => ?_
      split_ifs
      · refine quiet_bind quiet_select fun _ => quiet_bind ?_ fun _ => quiet_check
        refine quiet_bind quiet_query fun now => quiet_bind (used _) fun daily => ?_
        split_ifs
        · exact quiet_bind (used _) fun _ => quiet_pure
        · exact quiet_pure
      · exact quiet_pure

theorem quiet_quote (operation : FeeOperation) (currency : String) (amount : Int)
    (organizationId : Option Uuid) :
    Quiet Db.records (FeesService.quote operation currency amount organizationId) := by
  have rule : ∀ scope, Quiet Db.records (FeesService.ruleOf operation currency scope) :=
    fun _ => quiet_queryCommitted
  refine quiet_bind ?_ fun active => ?_
  · cases organizationId with
    | none => exact rule none
    | some id =>
      refine quiet_bind (rule _) fun own => ?_
      split_ifs
      · exact quiet_pure
      · exact rule none
  · cases active with
    | none => exact quiet_pure
    | some active => exact quiet_bind quiet_ret fun _ => quiet_pure

namespace WalletsService

theorem quiet_getWallet (id : Uuid) : Quiet Db.records (getWallet id) :=
  quiet_bind quiet_queryCommitted fun _ => quiet_orThrow

theorem quiet_lockRows (ids : List Uuid) : Quiet Db.records (lockRows ids) := by
  induction ids with
  | nil => exact quiet_pure
  | cons id rest ih =>
    exact quiet_bind quiet_select fun _ => quiet_bind ih fun _ => quiet_pure

theorem quiet_lockActiveWallets (ids : List Uuid) : Quiet Db.records (lockActiveWallets ids) := by
  refine quiet_bind (quiet_lockRows _) fun rows => ?_
  split_ifs
  · exact quiet_throw
  · exact quiet_pure

theorem quiet_transferWithin (id : Uuid) (source destination : Wallet) (movement : MoneyMovement) :
    Quiet Db.records (transferWithin id source destination movement) := by
  unfold transferWithin
  split_ifs
  · exact quiet_throw
  · exact quiet_bind (quiet_lockActiveWallets _) fun _ => LedgerService.quiet_postWithin _ _

theorem quiet_reserveWithin (id walletId : Uuid) (movement : MoneyMovement) :
    Quiet Db.records (reserveWithin id walletId movement) :=
  quiet_bind (quiet_lockActiveWallets _) fun _ => quiet_bind (quiet_getWallet _) fun _ =>
    LedgerService.quiet_postWithin _ _

theorem quiet_collectFeeWithin (fresh : Fresh) (walletId : Uuid) (balance : WalletBalance)
    (movement : MoneyMovement) :
    Quiet Db.records (collectFeeWithin fresh walletId balance movement) :=
  quiet_bind (quiet_getWallet _) fun _ =>
    quiet_bind (LedgerService.quiet_ensureSystemAccount _ _) fun _ =>
      LedgerService.quiet_postWithin _ _

end WalletsService

theorem TransfersService.quiet_collectFee (fresh : Fresh) (source : Wallet)
    (transaction : Transaction) (fee : FeeQuote) :
    Quiet Db.records (TransfersService.collectFee fresh source transaction fee) := by
  unfold TransfersService.collectFee
  split_ifs
  · exact quiet_bind (WalletsService.quiet_collectFeeWithin _ _ _ _) fun _ => quiet_pure
  · exact quiet_pure

theorem PayoutsService.quiet_sourceWallet (owner : Owner) (destination : PayoutDestination)
    (walletId : Option Uuid) :
    Quiet Db.records (PayoutsService.sourceWallet owner destination walletId) := by
  have fits : ∀ wallet : Wallet, Quiet Db.records (if wallet.currency ≠ destination.currency then
      Txn.throw (PayoutsService.destinationMismatchException wallet destination)
      else Pure.pure wallet : DbTxn Wallet) := by
    intro wallet
    split_ifs
    · exact quiet_throw
    · exact quiet_pure
  unfold PayoutsService.sourceWallet
  cases walletId with
  | some id => exact quiet_bind (quiet_bind quiet_queryCommitted fun _ => quiet_orThrow) fits
  | none => exact quiet_bind quiet_queryCommitted fun _ => quiet_bind quiet_orThrow fits

/-! ## Checkouts -/

theorem quiet_quoteCovered (operation : FeeOperation) (currency : String) (amount : Int)
    (organizationId : Option Uuid) :
    Quiet Db.records (FeesService.quoteCovered operation currency amount organizationId) := by
  refine quiet_bind (quiet_quote _ _ _ _) fun fee => ?_
  split_ifs
  · exact quiet_throw
  · exact quiet_pure

theorem quiet_resolveCreditTarget (owner : Owner) (currency : String) :
    Quiet Db.records (WalletsService.resolveCreditTarget owner currency) :=
  quiet_bind quiet_queryCommitted fun _ => quiet_orThrow

namespace PaymentsService

theorem quiet_customerEmailFor (owner : Owner) (input : InitializePaymentInput) :
    Quiet Db.records (customerEmailFor owner input) := by
  unfold customerEmailFor
  split
  · exact quiet_pure
  · cases owner with
    | organization id => exact quiet_throw
    | user id =>
      exact quiet_bind quiet_queryCommitted fun _ => quiet_bind quiet_orThrow fun _ => quiet_pure

/-- A quote is a row of another table. -/
theorem quiet_quoteFor (generated : Generated) (outside : Outside) (owner : Owner)
    (target : WalletsService.CreditTarget) (input : InitializePaymentInput) :
    Quiet Db.records (quoteFor generated outside owner target input) := by
  unfold quoteFor
  split_ifs
  · refine quiet_bind (quiet_bind quiet_ret fun offer => quiet_bind ?_ fun _ => quiet_pure)
      fun _ => quiet_pure
    refine quiet_separately fun view a write done db => ?_
    rw [same_of_databaseCheck done]
    rfl
  · exact quiet_pure

end PaymentsService

end Services

end Finstack
