import Finstack.Model.Services.Rows
import Finstack.Foundation.Pending

/-! # What the locks of the services cover

Each INSERT and UPDATE of the services writes within the locks it takes.
-/

namespace Finstack

open Foundation Discipline

variable {c c' : Db} {l : RowLock}

/-! ## Wallets -/

theorem mem_walletLocks (wallet : Wallet) : RowLock.wallet wallet.id false ∈ Db.walletLocks wallet := by
  simp [Db.walletLocks]

theorem currency_mem_walletLocks (wallet : Wallet) :
    RowLock.walletCurrency wallet.owner wallet.currency ∈ Db.walletLocks wallet := by
  simp [Db.walletLocks]

theorem primary_mem_walletLocks {wallet : Wallet} (primary : wallet.isPrimary = true) :
    RowLock.walletPrimary wallet.owner ∈ Db.walletLocks wallet := by
  simp [Db.walletLocks, primary]

theorem writes_insertWallet (wallet : Wallet) :
    Writes (Db.walletLocks wallet) (Db.onWallets (·.insert wallet)) := by
  constructor
  · intro c c' same l here
    have own := same _ (mem_walletLocks wallet)
    simp only [Db.same_observed, Db.observe, Db.Observed.wallet.injEq] at own
    have absent : c.wallets.find? (key wallet) = c'.wallets.find? (key wallet) := own
    cases l with
    | wallet id shared =>
      simp only [Db.same_observed, Db.observe, Db.Observed.wallet.injEq] at here ⊢
      simp only [Db.onWallets, Table.find?_insert, here]
    | walletCurrency owner currency =>
      simp only [Db.same_observed, Db.observe, Db.Observed.index.injEq, Db.findWallet] at here ⊢
      simp only [Db.onWallets, Table.index_insert, here, absent]
    | walletPrimary owner =>
      simp only [Db.same_observed, Db.observe, Db.Observed.index.injEq,
        Db.findPrimaryWallet] at here ⊢
      simp only [Db.onWallets, Table.index_insert, here, absent]
    | _ => exact here
  · intro c l free
    cases l with
    | wallet id shared =>
      have other : wallet.id ≠ id := fun same =>
        RowLock.ne_of_free free (mem_walletLocks wallet) rfl (congrArg (RowLock.wallet · false) same)
      simp only [Db.same_observed, Db.observe, Db.onWallets, Db.Observed.wallet.injEq]
      exact (Table.find?_insert_ne other).symm
    | walletCurrency owner currency =>
      have other : ¬ (wallet.owner = owner ∧ wallet.currency = currency) := by
        rintro ⟨rfl, rfl⟩
        exact RowLock.ne_of_free free (currency_mem_walletLocks wallet) rfl rfl
      simp [Db.same_observed, Db.observe, Db.onWallets, Db.findWallet, Table.index_insert, other]
    | walletPrimary owner =>
      have other : ¬ (wallet.owner = owner ∧ wallet.isPrimary = true) := by
        rintro ⟨rfl, primary⟩
        exact RowLock.ne_of_free free (primary_mem_walletLocks primary) rfl rfl
      simp [Db.same_observed, Db.observe, Db.onWallets, Db.findPrimaryWallet, Table.index_insert,
        other]
    | _ => rfl

/-- A change of a wallet's status. -/
theorem writes_setStatus (id : Uuid) (status : WalletStatus) :
    Writes [RowLock.wallet id false]
      (Db.onWallets (·.modify id fun wallet => { wallet with status := status })) := by
  have keeps : ∀ wallet : Wallet, key { wallet with status := status } = key wallet := fun _ => rfl
  constructor
  · intro c c' same l here
    cases l with
    | wallet other shared =>
      simp only [Db.same_observed, Db.observe, Db.Observed.wallet.injEq] at here ⊢
      simp only [Db.onWallets, Table.find?_modify keeps, here]
    | walletCurrency owner currency =>
      simp only [Db.same_observed, Db.observe, Db.Observed.index.injEq, Db.findWallet] at here ⊢
      simp only [Db.onWallets]
      rw [Table.index_modify keeps fun _ => rfl, Table.index_modify keeps fun _ => rfl, here]
    | walletPrimary owner =>
      simp only [Db.same_observed, Db.observe, Db.Observed.index.injEq,
        Db.findPrimaryWallet] at here ⊢
      simp only [Db.onWallets]
      rw [Table.index_modify keeps fun _ => rfl, Table.index_modify keeps fun _ => rfl, here]
    | _ => exact here
  · intro c l free
    cases l with
    | wallet other shared =>
      have ne : id ≠ other := fun same => RowLock.ne_of_free free List.mem_cons_self rfl
        (congrArg (RowLock.wallet · false) same)
      simp only [Db.same_observed, Db.observe, Db.onWallets, Db.Observed.wallet.injEq]
      exact (Table.find?_modify_ne keeps ne).symm
    | walletCurrency owner currency =>
      simp only [Db.same_observed, Db.observe, Db.onWallets, Db.findWallet, Db.Observed.index.injEq]
      exact (Table.index_modify keeps fun _ => rfl).symm
    | walletPrimary owner =>
      simp only [Db.same_observed, Db.observe, Db.onWallets, Db.findPrimaryWallet,
        Db.Observed.index.injEq]
      exact (Table.index_modify keeps fun _ => rfl).symm
    | _ => rfl

/-! ## Transactions -/

theorem row_mem_transactionLocks (row : Transaction) :
    RowLock.transaction row.id ∈ Db.transactionLocks row := by
  simp [Db.transactionLocks]

theorem reference_mem_rowLocks (row : Transaction) :
    RowLock.transactionReference row.reference ∈ Db.transactionLocks row := by
  simp [Db.transactionLocks]

theorem key_mem_transactionLocks {row : Transaction} {idempotencyKey : String}
    (given : row.idempotencyKey = some idempotencyKey) :
    RowLock.transactionIdempotencyKey row.owner idempotencyKey ∈ Db.transactionLocks row := by
  simp [Db.transactionLocks, given]

theorem writes_insertRow (row : Transaction) :
    Writes (Db.transactionLocks row) (Db.onTransactions (·.insert row)) := by
  constructor
  · intro c c' same l here
    have own := same _ (row_mem_transactionLocks row)
    simp only [Db.same_observed, Db.observe, Db.Observed.transaction.injEq] at own
    have absent : c.transactions.find? (key row) = c'.transactions.find? (key row) := own
    cases l with
    | transaction id =>
      simp only [Db.same_observed, Db.observe, Db.Observed.transaction.injEq] at here ⊢
      simp only [Db.onTransactions, Table.find?_insert, here]
    | transactionReference reference =>
      simp only [Db.same_observed, Db.observe, Db.Observed.index.injEq,
        Db.findTransactionByReference] at here ⊢
      simp only [Db.onTransactions, Table.index_insert, here, absent]
    | transactionIdempotencyKey owner idempotencyKey =>
      simp only [Db.same_observed, Db.observe, Db.Observed.index.injEq,
        Db.findByIdempotencyKey] at here ⊢
      simp only [Db.onTransactions, Table.index_insert, here, absent]
    | _ => exact here
  · intro c l free
    cases l with
    | transaction id =>
      have other : row.id ≠ id := fun same =>
        RowLock.ne_of_free free (row_mem_transactionLocks row) rfl (congrArg RowLock.transaction same)
      simp only [Db.same_observed, Db.observe, Db.onTransactions, Db.Observed.transaction.injEq]
      exact (Table.find?_insert_ne other).symm
    | transactionReference reference =>
      have other : row.reference ≠ reference := fun same =>
        RowLock.ne_of_free free (reference_mem_rowLocks row) rfl
          (congrArg RowLock.transactionReference same)
      simp [Db.same_observed, Db.observe, Db.onTransactions, Db.findTransactionByReference,
        Table.index_insert, other]
    | transactionIdempotencyKey owner idempotencyKey =>
      have other : ¬ (row.owner = owner ∧ row.idempotencyKey = some idempotencyKey) := by
        rintro ⟨rfl, given⟩
        exact RowLock.ne_of_free free (key_mem_transactionLocks given) rfl rfl
      simp [Db.same_observed, Db.observe, Db.onTransactions, Db.findByIdempotencyKey,
        Table.index_insert, other]
    | _ => rfl

/-- A change of a transaction that keeps what it is found by. -/
structure KeepsTransaction (change : Transaction → Transaction) : Prop where
  id : ∀ row, (change row).id = row.id
  reference : ∀ row, (change row).reference = row.reference
  owner : ∀ row, (change row).owner = row.owner
  idempotencyKey : ∀ row, (change row).idempotencyKey = row.idempotencyKey

theorem keeps_apply (patch : Requests.TransitionPatch) (status : TransactionStatus) :
    KeepsTransaction (patch.apply status) :=
  ⟨fun _ => rfl, fun _ => rfl, fun _ => rfl, fun _ => rfl⟩

theorem writes_modifyTransaction (id : Uuid) {change : Transaction → Transaction}
    (keeps : KeepsTransaction change) :
    Writes [RowLock.transaction id] (Db.onTransactions (·.modify id change)) := by
  have byId : ∀ row : Transaction, key (change row) = key row := keeps.id
  have reference : ∀ (db : Db) text, ((Db.onTransactions (·.modify id change) db).findTransactionByReference
      text).map key = (db.findTransactionByReference text).map key := fun db text =>
    Table.index_modify byId fun row => by simp [keeps.reference]
  have idempotencyKey : ∀ (db : Db) owner text, ((Db.onTransactions (·.modify id change)
      db).findByIdempotencyKey owner text).map key = (db.findByIdempotencyKey owner text).map key :=
    fun db owner text => Table.index_modify byId fun row => by
      simp [keeps.owner, keeps.idempotencyKey]
  constructor
  · intro c c' same l here
    cases l with
    | transaction other =>
      simp only [Db.same_observed, Db.observe, Db.Observed.transaction.injEq] at here ⊢
      simp only [Db.onTransactions, Table.find?_modify byId, here]
    | transactionReference text =>
      simp only [Db.same_observed, Db.observe, Db.Observed.index.injEq, reference] at here ⊢
      exact here
    | transactionIdempotencyKey owner text =>
      simp only [Db.same_observed, Db.observe, Db.Observed.index.injEq, idempotencyKey] at here ⊢
      exact here
    | _ => exact here
  · intro c l free
    cases l with
    | transaction other =>
      have ne : id ≠ other := fun same =>
        RowLock.ne_of_free free List.mem_cons_self rfl (congrArg RowLock.transaction same)
      simp only [Db.same_observed, Db.observe, Db.onTransactions, Db.Observed.transaction.injEq]
      exact (Table.find?_modify_ne byId ne).symm
    | transactionReference text => simp only [Db.same_observed, Db.observe, reference]
    | transactionIdempotencyKey owner text =>
      simp only [Db.same_observed, Db.observe, idempotencyKey]
    | _ => rfl

/-! ## Payments -/

theorem writes_modifyPayment (id : Uuid) {change : Payment → Payment}
    (byId : ∀ row, (change row).id = row.id)
    (byTransaction : ∀ row, (change row).transactionId = row.transactionId) :
    Writes [RowLock.payment id] (Db.onPayments (·.modify id change)) := by
  have keeps : ∀ row : Payment, key (change row) = key row := byId
  have index : ∀ (db : Db) transactionId, ((Db.onPayments (·.modify id change)
      db).findPaymentByTransaction transactionId).map key =
        (db.findPaymentByTransaction transactionId).map key :=
    fun db transactionId => Table.index_modify keeps fun row => by simp [byTransaction]
  constructor
  · intro c c' same l here
    cases l with
    | payment other =>
      simp only [Db.same_observed, Db.observe, Db.Observed.payment.injEq] at here ⊢
      simp only [Db.onPayments, Table.find?_modify keeps, here]
    | paymentTransaction transactionId =>
      simp only [Db.same_observed, Db.observe, Db.Observed.index.injEq, index] at here ⊢
      exact here
    | _ => exact here
  · intro c l free
    cases l with
    | payment other =>
      have ne : id ≠ other := fun same =>
        RowLock.ne_of_free free List.mem_cons_self rfl (congrArg RowLock.payment same)
      simp only [Db.same_observed, Db.observe, Db.onPayments, Db.Observed.payment.injEq]
      exact (Table.find?_modify_ne keeps ne).symm
    | paymentTransaction transactionId => simp only [Db.same_observed, Db.observe, index]
    | _ => rfl

/-! ## Refunds and payouts -/

theorem mem_refundLocks (row : Refund) : RowLock.refund row.id ∈ Db.refundLocks row := by
  simp [Db.refundLocks]

theorem writes_insertRefund (row : Refund) :
    Writes (Db.refundLocks row) (Db.onRefunds (·.insert row)) := by
  constructor
  · intro c c' same l here
    have own := same _ (mem_refundLocks row)
    simp only [Db.same_observed, Db.observe, Db.Observed.refund.injEq] at own
    have absent : c.refunds.find? (key row) = c'.refunds.find? (key row) := own
    cases l with
    | refund id =>
      simp only [Db.same_observed, Db.observe, Db.Observed.refund.injEq] at here ⊢
      simp only [Db.onRefunds, Table.find?_insert, here]
    | refundReference reference =>
      simp only [Db.same_observed, Db.observe, Db.Observed.index.injEq,
        Db.findRefundByReference] at here ⊢
      simp only [Db.onRefunds, Table.index_insert, here, absent]
    | refundIdempotencyKey adminId idempotencyKey =>
      simp only [Db.same_observed, Db.observe, Db.Observed.index.injEq,
        Db.findRefundByIdempotencyKey] at here ⊢
      simp only [Db.onRefunds, Table.index_insert, here, absent]
    | _ => exact here
  · intro c l free
    cases l with
    | refund id =>
      have other : row.id ≠ id := fun same =>
        RowLock.ne_of_free free (mem_refundLocks row) rfl (congrArg RowLock.refund same)
      simp only [Db.same_observed, Db.observe, Db.onRefunds, Db.Observed.refund.injEq]
      exact (Table.find?_insert_ne other).symm
    | refundReference reference =>
      have member : RowLock.refundReference row.reference ∈ Db.refundLocks row := by
        simp [Db.refundLocks]
      have other : row.reference ≠ reference := fun same =>
        RowLock.ne_of_free free member rfl (congrArg RowLock.refundReference same)
      simp [Db.same_observed, Db.observe, Db.onRefunds, Db.findRefundByReference,
        Table.index_insert, other]
    | refundIdempotencyKey adminId idempotencyKey =>
      have member : RowLock.refundIdempotencyKey row.requestedByUserId row.idempotencyKey ∈
          Db.refundLocks row := by
        simp [Db.refundLocks]
      have other : ¬ (row.requestedByUserId = adminId ∧ row.idempotencyKey = idempotencyKey) := by
        rintro ⟨rfl, rfl⟩
        exact RowLock.ne_of_free free member rfl rfl
      simp [Db.same_observed, Db.observe, Db.onRefunds, Db.findRefundByIdempotencyKey,
        Table.index_insert, other]
    | _ => rfl

theorem mem_payoutLocks (row : Payout) : RowLock.payout row.id ∈ Db.payoutLocks row := by
  simp [Db.payoutLocks]

theorem writes_insertPayout (row : Payout) :
    Writes (Db.payoutLocks row) (Db.onPayouts (·.insert row)) := by
  constructor
  · intro c c' same l here
    have own := same _ (mem_payoutLocks row)
    simp only [Db.same_observed, Db.observe, Db.Observed.payout.injEq] at own
    have absent : c.payouts.find? (key row) = c'.payouts.find? (key row) := own
    cases l with
    | payout id =>
      simp only [Db.same_observed, Db.observe, Db.Observed.payout.injEq] at here ⊢
      simp only [Db.onPayouts, Table.find?_insert, here]
    | payoutReference reference =>
      simp only [Db.same_observed, Db.observe, Db.Observed.index.injEq,
        Db.findPayoutByReference] at here ⊢
      simp only [Db.onPayouts, Table.index_insert, here, absent]
    | payoutTransaction transactionId =>
      simp only [Db.same_observed, Db.observe, Db.Observed.index.injEq,
        Db.findPayoutByTransaction] at here ⊢
      simp only [Db.onPayouts, Table.index_insert, here, absent]
    | _ => exact here
  · intro c l free
    cases l with
    | payout id =>
      have other : row.id ≠ id := fun same =>
        RowLock.ne_of_free free (mem_payoutLocks row) rfl (congrArg RowLock.payout same)
      simp only [Db.same_observed, Db.observe, Db.onPayouts, Db.Observed.payout.injEq]
      exact (Table.find?_insert_ne other).symm
    | payoutReference reference =>
      have member : RowLock.payoutReference row.reference ∈ Db.payoutLocks row := by
        simp [Db.payoutLocks]
      have other : row.reference ≠ reference := fun same =>
        RowLock.ne_of_free free member rfl (congrArg RowLock.payoutReference same)
      simp [Db.same_observed, Db.observe, Db.onPayouts, Db.findPayoutByReference,
        Table.index_insert, other]
    | payoutTransaction transactionId =>
      have member : RowLock.payoutTransaction row.transactionId ∈ Db.payoutLocks row := by
        simp [Db.payoutLocks]
      have other : row.transactionId ≠ transactionId := fun same =>
        RowLock.ne_of_free free member rfl (congrArg RowLock.payoutTransaction same)
      simp [Db.same_observed, Db.observe, Db.onPayouts, Db.findPayoutByTransaction,
        Table.index_insert, other]
    | _ => rfl

/-! ## Quotes and events -/

theorem writes_insertQuote (row : FxQuote) :
    Writes [RowLock.fxQuote row.id] (Db.onFxQuotes (·.insert row)) := by
  constructor
  · intro c c' same l here
    cases l with
    | fxQuote id =>
      simp only [Db.same_observed, Db.observe, Db.Observed.fxQuote.injEq] at here ⊢
      simp only [Db.onFxQuotes, Table.find?_insert, here]
    | _ => exact here
  · intro c l free
    cases l with
    | fxQuote id =>
      have other : row.id ≠ id := fun same =>
        RowLock.ne_of_free free List.mem_cons_self rfl (congrArg RowLock.fxQuote same)
      simp only [Db.same_observed, Db.observe, Db.onFxQuotes, Db.Observed.fxQuote.injEq]
      exact (Table.find?_insert_ne other).symm
    | _ => rfl

theorem writes_modifyQuote {locks : List RowLock} {id : Uuid} {change : FxQuote → FxQuote}
    (locked : RowLock.fxQuote id ∈ locks) (byId : ∀ row, (change row).id = row.id) :
    Writes locks (Db.onFxQuotes (·.modify id change)) := by
  have keeps : ∀ row : FxQuote, key (change row) = key row := byId
  constructor
  · intro c c' same l here
    cases l with
    | fxQuote other =>
      simp only [Db.same_observed, Db.observe, Db.Observed.fxQuote.injEq] at here ⊢
      simp only [Db.onFxQuotes, Table.find?_modify keeps, here]
    | _ => exact here
  · intro c l free
    cases l with
    | fxQuote other =>
      have ne : id ≠ other := fun same =>
        RowLock.ne_of_free free locked rfl (congrArg RowLock.fxQuote same)
      simp only [Db.same_observed, Db.observe, Db.onFxQuotes, Db.Observed.fxQuote.injEq]
      exact (Table.find?_modify_ne keeps ne).symm
    | _ => rfl

theorem writes_addEvent (event : OutboxEvent) : Writes [] (Db.addEvent event) :=
  ⟨fun c c' _ l here => by cases l <;> exact here, fun c l _ => by cases l <;> rfl⟩

end Finstack
