import Finstack.Foundation.Indifference
import Finstack.Model.Services.Calls
import Finstack.Soundness.Services.Quiet

/-! # Giving back what is held

Failures of payouts and refunds and the ends of settlement holds ask for no lock of a wallet and come
to the same whatever its status.
-/

namespace Finstack.Services

open Foundation Txn

variable {α : Type} {walletId : Uuid} {status : WalletStatus}

/-- A change of one wallet's status. -/
def restatus (walletId : Uuid) (status : WalletStatus) : Db → Db :=
  Db.onWallets (·.modify walletId fun wallet => { wallet with status := status })

/-- The lock is on no wallet. -/
def NotWallet (l : RowLock) : Prop := ∀ id shared, l ≠ .wallet id shared

/-- The code takes no notice of the status of a wallet. -/
abbrev Heedless (walletId : Uuid) (status : WalletStatus) (x : DbTxn α) : Prop :=
  Txn.Indifferent (restatus walletId status) NotWallet x

theorem heedless_orFail {entity : String} {found : Option α} :
    Heedless walletId status (orFail entity found) := by
  cases found <;> trivial

theorem heedless_orThrow {e : Err} {found : Option α} :
    Heedless walletId status (orThrow e found) := by
  cases found <;> trivial

/-- An INSERT or UPDATE of another table. -/
theorem heedless_save {locks : List RowLock} {test : Db → Except DatabaseError Unit} {write : Db → Db}
    (mine : ∀ l ∈ locks, NotWallet l) (same : ∀ db, test (restatus walletId status db) = test db)
    (commutes : ∀ db, write (restatus walletId status db) = restatus walletId status (write db)) :
    Heedless walletId status (save locks test write) := by
  refine indifferent_statement mine (fun view => by rw [same]) fun view _ write' done => ?_
  rw [same_of_databaseCheck done]
  exact commutes

theorem heedless_inTransaction {body : DbTxn α} (heedless : Heedless walletId status body) :
    Heedless walletId status (inTransaction body) :=
  indifferent_transaction (heedless_save (by simp) (fun _ => rfl) fun _ => rfl) heedless

theorem notWallet_account (id : Uuid) : NotWallet (.account id) := fun _ _ same => nomatch same

/-- What is read of a wallet is its accounts and its currency. -/
theorem heedless_getWallet {id : Uuid} {k : Wallet → DbTxn α}
    (same : ∀ wallet status, k { wallet with status := status } = k wallet)
    (rest : ∀ wallet, Heedless walletId status (k wallet)) :
    Heedless walletId status (WalletsService.getWallet id >>= k) := by
  have keeps : ∀ wallet : Wallet, key { wallet with status := status } = key wallet := fun _ => rfl
  suffices Heedless walletId status (Txn.queryCommitted (fun db : Db => db.wallets.find? id) >>=
      fun found => orThrow WalletsService.walletNotFoundException found >>= k) from this
  refine indifferent_queryCommitted (fun db => ?_) fun found =>
    indifferent_bind heedless_orThrow rest
  simp only [restatus, Db.onWallets, Table.find?_modify keeps]
  split_ifs with own
  · subst own
    cases db.wallets.find? walletId with
    | none => rfl
    | some wallet => exact same wallet status
  · rfl

theorem heedless_lockRows (ids : List Uuid) :
    Heedless walletId status (Finstack.LedgerService.lockRows ids) := by
  induction ids with
  | nil => exact indifferent_pure
  | cons id rest ih =>
    refine indifferent_bind (indifferent_select ?_ fun _ => rfl) fun _ =>
      indifferent_bind ih fun _ => indifferent_pure
    simpa using notWallet_account id

theorem heedless_postWithin (id : Uuid) (input : PostingInput) :
    Heedless walletId status (Finstack.LedgerService.postWithin id input) := by
  refine indifferent_bind indifferent_ret fun amount =>
    indifferent_bind (indifferent_query fun _ => rfl) fun existing => ?_
  split_ifs
  · exact indifferent_bind (indifferent_query fun _ => rfl) fun _ => indifferent_bind heedless_orFail
      fun _ => indifferent_bind (indifferent_query fun _ => rfl) fun _ => indifferent_ret
  have reversal : Heedless walletId status
      (input.reversalOfId.forM Finstack.LedgerService.assertNotReversed) := by
    cases input.reversalOfId with
    | none => exact indifferent_pure
    | some original =>
      refine indifferent_bind (indifferent_query fun _ => rfl) fun found => ?_
      split_ifs
      · exact indifferent_throw
      · exact indifferent_pure
  have accounts : Heedless walletId status
      (Finstack.LedgerService.lockAccounts (input.entries.map (·.accountId))) := by
    refine indifferent_bind (heedless_lockRows _) fun rows => ?_
    dsimp only
    split_ifs
    · exact indifferent_throw
    · exact indifferent_pure
  refine indifferent_bind reversal fun _ => indifferent_bind accounts fun _ =>
    indifferent_bind indifferent_ret fun _ => indifferent_bind indifferent_ret fun _ =>
      indifferent_bind (heedless_save ?_ (fun _ => rfl) fun _ => rfl) fun _ =>
        indifferent_bind (heedless_save ?_ (fun _ => rfl) fun _ => rfl) fun _ => indifferent_pure
  · intro l member id shared
    rintro rfl
    cases reverses : input.reversalOfId <;>
      simp [Finstack.LedgerService.transactionLocks, Finstack.LedgerService.newTransaction,
        reverses] at member
  · intro l member id shared
    rintro rfl
    simp [Finstack.LedgerService.entryLocks] at member

theorem heedless_releaseWithin (id walletId' : Uuid) (movement : MoneyMovement) :
    Heedless walletId status (WalletsService.releaseWithin id walletId' movement) :=
  heedless_getWallet (fun _ _ => rfl) fun _ => heedless_postWithin _ _

theorem heedless_releaseSplitWithin (id walletId' : Uuid) (movement : MoneyMovement)
    (fromPending : Int) :
    Heedless walletId status (WalletsService.releaseSplitWithin id walletId' movement fromPending) :=
  heedless_getWallet (fun _ _ => rfl) fun _ => heedless_postWithin _ _

theorem heedless_makeAvailableWithin (id walletId' : Uuid) (movement : MoneyMovement) :
    Heedless walletId status (WalletsService.makeAvailableWithin id walletId' movement) :=
  heedless_getWallet (fun _ _ => rfl) fun _ => heedless_postWithin _ _

theorem heedless_lockTransaction (id : Uuid) :
    Heedless walletId status (TransactionsService.lockWithin id) :=
  indifferent_bind (indifferent_select (by simp [NotWallet]) fun _ => rfl) fun _ => heedless_orThrow

theorem heedless_lockPayment (id : Uuid) : Heedless walletId status (PaymentsService.lockWithin id) :=
  indifferent_bind (indifferent_select (by simp [NotWallet]) fun _ => rfl) fun _ => heedless_orThrow

theorem heedless_updatePayment (id : Uuid) (change : Payment → Payment) :
    Heedless walletId status (PaymentsService.update id change) :=
  heedless_save (by simp [NotWallet]) (fun _ => rfl) fun _ => rfl

theorem heedless_transition (id : Uuid) (next : TransactionStatus)
    (patch : TransactionsService.TransitionPatch) :
    Heedless walletId status (TransactionsService.transition id next patch) :=
  indifferent_bind (heedless_lockTransaction id) fun _ => indifferent_bind indifferent_ret fun _ =>
    indifferent_bind (heedless_save (by simp [NotWallet]) (fun _ => rfl) fun _ => rfl) fun _ =>
      indifferent_bind (indifferent_query fun _ => rfl) fun _ => heedless_orFail

theorem heedless_add (event : OutboxEvent) : Heedless walletId status (OutboxService.add event) :=
  indifferent_execute (by simp) fun _ => rfl

/-- A hold that is given back is looked for under no wallet's lock, whatever the wallet's status. -/
theorem Release.heedless (hold : Release) : Heedless walletId status hold.run := by
  cases hold with
  | failPayout id payout failureCode failureReason =>
    refine heedless_inTransaction (indifferent_bind (heedless_lockTransaction _) fun transaction => ?_)
    split_ifs
    · exact indifferent_pure
    · exact indifferent_bind (heedless_releaseWithin _ _ _) fun _ =>
        indifferent_bind (heedless_transition _ _ _) fun _ => heedless_add _
  | failRefund id refundId failureCode failureReason =>
    refine indifferent_bind (indifferent_queryCommitted (fun _ => rfl) fun _ => heedless_orFail)
      fun refund => heedless_inTransaction
        (indifferent_bind (heedless_lockTransaction _) fun transaction => ?_)
    split_ifs
    · exact indifferent_pure
    refine indifferent_bind ?_ fun toPending => indifferent_bind (heedless_releaseSplitWithin _ _ _ _)
      fun _ => indifferent_bind (heedless_transition _ _ _) fun _ => heedless_add _
    unfold RefundsService.returnToPending
    split_ifs
    · exact indifferent_pure
    · refine indifferent_bind (heedless_lockPayment _) fun payment =>
        indifferent_bind (indifferent_query fun _ => rfl) fun now => ?_
      split_ifs
      · exact indifferent_bind (heedless_updatePayment _ _) fun _ => indifferent_pure
      · exact indifferent_pure
  | endSettlementHold id paymentId early =>
    refine indifferent_bind (heedless_inTransaction (indifferent_bind (heedless_lockPayment _)
      fun payment => ?_)) fun _ => indifferent_pure
    split_ifs
    · exact indifferent_pure
    · exact indifferent_bind (heedless_makeAvailableWithin _ _ _) fun _ =>
        indifferent_bind (indifferent_query fun _ => rfl) fun _ =>
          indifferent_bind (heedless_updatePayment _ _) fun _ => indifferent_bind (heedless_add _)
            fun _ => indifferent_pure

end Finstack.Services
