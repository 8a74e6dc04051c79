import Finstack.Soundness.Books.Commits
import Finstack.Soundness.Services.Rows

/-! # What the books do not look at

Updates of what a provider has said, and of the status of a wallet: rows stay the records they are, and
nothing is posted.
-/

namespace Finstack

open Foundation Discipline Services

variable {c b : Db} {id : Uuid}

/-! ## What is written -/

theorem Refund.Continues.facts {row row' : Refund} (same : row.Continues row') :
    row'.id = row.id ∧ row'.reference = row.reference ∧ row'.paymentId = row.paymentId ∧
      row'.transactionId = row.transactionId ∧ row'.amount = row.amount ∧ row'.walletId = row.walletId ∧
      row'.walletDebitAmount = row.walletDebitAmount ∧ row'.pendingHoldAmount = row.pendingHoldAmount ∧
      row'.requestedByUserId = row.requestedByUserId ∧ row'.idempotencyKey = row.idempotencyKey := by
  rw [Refund.Continues] at same
  rw [same]
  exact ⟨rfl, rfl, rfl, rfl, rfl, rfl, rfl, rfl, rfl, rfl⟩

theorem Payout.Continues.facts {row row' : Payout} (same : row.Continues row') :
    row'.id = row.id ∧ row'.reference = row.reference ∧ row'.transactionId = row.transactionId ∧
      row'.walletId = row.walletId ∧ row'.amount = row.amount ∧ row'.currency = row.currency := by
  rw [Payout.Continues] at same
  rw [same]
  exact ⟨rfl, rfl, rfl, rfl, rfl, rfl⟩

theorem writes_modifyRefund (id : Uuid) {change : Refund → Refund}
    (same : ∀ row : Refund, row.Continues (change row)) :
    Writes [RowLock.refund id] (Db.onRefunds (·.modify id change)) := by
  have keeps : ∀ row : Refund, key (change row) = key row := fun row => (same row).facts.1
  have index : ∀ (db : Db) (p : Refund → Bool), (∀ row, p (change row) = p row) →
      ((db.refunds.modify id change).rows.find? p).map key = (db.refunds.rows.find? p).map key :=
    fun db p alike => Table.index_modify keeps alike
  have byReference : ∀ (db : Db) reference, ((Db.onRefunds (·.modify id change)
      db).findRefundByReference reference).map key = (db.findRefundByReference reference).map key :=
    fun db reference => index db _ fun row => by simp only [(same row).facts.2.1]
  have byKey : ∀ (db : Db) adminId idempotencyKey, ((Db.onRefunds (·.modify id change)
      db).findRefundByIdempotencyKey adminId idempotencyKey).map key =
        (db.findRefundByIdempotencyKey adminId idempotencyKey).map key := by
    intro db adminId idempotencyKey
    refine index db _ fun row => ?_
    obtain ⟨-, -, -, -, -, -, -, -, requested, keyed⟩ := (same row).facts
    rw [requested, keyed]
  constructor
  · intro c c' _ l here
    cases l with
    | refund other =>
      simp only [Db.same_observed, Db.observe, Db.Observed.refund.injEq] at here ⊢
      simp only [Db.onRefunds, Table.find?_modify keeps, here]
    | refundReference reference =>
      simp only [Db.same_observed, Db.observe, Db.Observed.index.injEq, byReference] at here ⊢
      exact here
    | refundIdempotencyKey adminId idempotencyKey =>
      simp only [Db.same_observed, Db.observe, Db.Observed.index.injEq, byKey] at here ⊢
      exact here
    | _ => exact here
  · intro c l free
    cases l with
    | refund other =>
      have ne : id ≠ other := fun same =>
        RowLock.ne_of_free free List.mem_cons_self rfl (congrArg RowLock.refund same)
      simp only [Db.same_observed, Db.observe, Db.onRefunds, Db.Observed.refund.injEq]
      exact (Table.find?_modify_ne keeps ne).symm
    | refundReference reference => simp only [Db.same_observed, Db.observe, byReference]
    | refundIdempotencyKey adminId idempotencyKey => simp only [Db.same_observed, Db.observe, byKey]
    | _ => rfl

theorem writes_modifyPayout (id : Uuid) {change : Payout → Payout}
    (same : ∀ row : Payout, row.Continues (change row)) :
    Writes [RowLock.payout id] (Db.onPayouts (·.modify id change)) := by
  have keeps : ∀ row : Payout, key (change row) = key row := fun row => (same row).facts.1
  have byReference : ∀ (db : Db) reference, ((Db.onPayouts (·.modify id change)
      db).findPayoutByReference reference).map key = (db.findPayoutByReference reference).map key :=
    fun db reference => Table.index_modify keeps fun row => by simp only [(same row).facts.2.1]
  have byTransaction : ∀ (db : Db) transactionId, ((Db.onPayouts (·.modify id change)
      db).findPayoutByTransaction transactionId).map key =
        (db.findPayoutByTransaction transactionId).map key :=
    fun db transactionId => Table.index_modify keeps fun row => by simp only [(same row).facts.2.2.1]
  constructor
  · intro c c' _ l here
    cases l with
    | payout other =>
      simp only [Db.same_observed, Db.observe, Db.Observed.payout.injEq] at here ⊢
      simp only [Db.onPayouts, Table.find?_modify keeps, here]
    | payoutReference reference =>
      simp only [Db.same_observed, Db.observe, Db.Observed.index.injEq, byReference] at here ⊢
      exact here
    | payoutTransaction transactionId =>
      simp only [Db.same_observed, Db.observe, Db.Observed.index.injEq, byTransaction] at here ⊢
      exact here
    | _ => exact here
  · intro c l free
    cases l with
    | payout other =>
      have ne : id ≠ other := fun same =>
        RowLock.ne_of_free free List.mem_cons_self rfl (congrArg RowLock.payout same)
      simp only [Db.same_observed, Db.observe, Db.onPayouts, Db.Observed.payout.injEq]
      exact (Table.find?_modify_ne keeps ne).symm
    | payoutReference reference => simp only [Db.same_observed, Db.observe, byReference]
    | payoutTransaction transactionId => simp only [Db.same_observed, Db.observe, byTransaction]
    | _ => rfl

/-! ## The books after it -/

/-- The records and the sums over them are the same after an update. -/
structure Db.Alike (c b : Db) : Prop where
  progress : c.Progress b
  sums : c.SameSums b
  linked : b.Linked
  ledger : b.ledger = c.ledger
  transactions : b.transactions = c.transactions
  fxQuotes : b.fxQuotes = c.fxQuotes
  feeRules : b.feeRules = c.feeRules
  pending : ∀ walletId, b.pendingOf walletId = c.pendingOf walletId
  wallets : ∀ wallet ∈ b.wallets, ∃ old ∈ c.wallets, old.id = wallet.id ∧
    ∀ balance, balanceAccount old balance = balanceAccount wallet balance
  payments : ∀ row ∈ b.payments, ∃ old ∈ c.payments, old.id = row.id ∧ old.Continues row ∧
    old.SameHold row
  refunds : ∀ row ∈ b.refunds, ∃ old ∈ c.refunds, old.id = row.id ∧
    old.transactionId = row.transactionId

namespace Db.Alike

theorem statusOf (alike : c.Alike b) : b.statusOf = c.statusOf := by
  funext transactionId
  rw [Db.statusOf, Db.statusOf, alike.transactions]

theorem continues (alike : c.Alike b) : c.Continues b where
  toProgress := alike.progress
  successes refund member now := by
    obtain ⟨old, there, own, same⟩ := alike.refunds refund member
    have found : c.refunds.find? refund.id = some old := Table.find?_eq_some_iff.mpr ⟨there, own⟩
    rw [alike.statusOf] at now
    exact .inl ⟨by rw [found, Option.isSome_some], now⟩
  released paymentId used := by
    rw [Settled, Uses, alike.ledger] at used
    exact .inl used

theorem books (alike : c.Alike b) (books : c.Books) : b.Books where
  linked := alike.linked
  accounts := by
    constructor
    · intro wallet member balance
      obtain ⟨old, there, -, same⟩ := alike.wallets wallet member
      rw [alike.ledger, ← same]
      exact books.accounts.opened old there balance
    · intro wallet member other member' balance balance' shared
      obtain ⟨old, there, own, same⟩ := alike.wallets wallet member
      obtain ⟨old', there', own', same'⟩ := alike.wallets other member'
      obtain ⟨rfl, rfl⟩ := books.accounts.own old there old' there' balance balance'
        ((same balance).trans (shared.trans (same' balance').symm))
      exact ⟨Table.eq_of_key member member' (own.symm.trans own'), rfl⟩
  journal := by
    refine ⟨alike.ledger ▸ books.journal.indexed, by rw [alike.ledger]; exact books.journal.entries,
      by rw [alike.ledger]; exact books.journal.settled, fun posting member => ?_⟩
    rw [alike.ledger] at member
    obtain ⟨purpose, name, plain, reference, done⟩ := books.journal.attributed posting member
    refine ⟨purpose, name, plain, reference, done.progress alike.progress alike.linked ?_⟩
    intro _ payment there _
    obtain ⟨row, found, -⟩ := alike.progress.payments payment.id payment (Table.find?_of_mem there)
    obtain ⟨listed, own⟩ := Table.find?_some found
    obtain ⟨old, there', own', -, hold⟩ := alike.payments row listed
    obtain rfl := Table.eq_of_key there' there (own'.trans own)
    exact ⟨row, listed, own, hold⟩
  balances := by
    constructor
    · intro wallet member
      obtain ⟨old, there, own, same⟩ := alike.wallets wallet member
      have account : old.pendingAccountId = wallet.pendingAccountId := same .pending
      rw [alike.ledger, alike.pending, ← own, ← account]
      exact books.balances.pending old there
    · intro wallet member
      obtain ⟨old, there, own, same⟩ := alike.wallets wallet member
      have account : old.reservedAccountId = wallet.reservedAccountId := same .reserved
      rw [alike.ledger, alike.sums.held, ← own, ← account]
      exact books.balances.reserved old there
  reversed := by
    refine books.reversed.commit alike.progress (fun row member => ?_) fun id => alike.sums.totals _ id
    obtain ⟨old, there, own, same, -⟩ := alike.payments row member
    exact ⟨old, there, own, same⟩
  uncredited row member open' := by
    obtain ⟨old, there, -, same, pendingAmount, fundsAvailableAt⟩ := alike.payments row member
    obtain ⟨nothing, never⟩ := books.uncredited old there fun credited =>
      open' (same.1 ▸ alike.progress.credited credited)
    exact ⟨pendingAmount.trans nothing, fundsAvailableAt.trans never⟩
  consumed quote member reference converted := by
    rw [alike.fxQuotes] at member
    obtain ⟨name, plain, same, done⟩ := books.consumed quote member reference converted
    exact ⟨name, plain, same, done.progress alike.progress alike.linked fun other => by cases other⟩
  fees rule member := books.fees rule (alike.feeRules ▸ member)

end Db.Alike

/-! ## The updates -/

section Rows

variable {R : Type} [Keyed R Uuid] {t : Table R} {change : R → R}

theorem Table.same_of_modify (keeps : ∀ row, key (change row) = key row) {P : R → R → Prop}
    (refl : ∀ row, P row row) (same : ∀ row, P row (change row)) :
    ∀ row ∈ t.modify id change, ∃ old ∈ t, key old = key row ∧ P old row := by
  intro row member
  obtain ⟨old, there, own, rfl | ⟨rfl, -⟩⟩ := Table.origin keeps row member
  · exact ⟨row, there, rfl, refl row⟩
  · exact ⟨old, there, own, same old⟩

end Rows

namespace Db

theorem alike_refund {change : Refund → Refund} (same : ∀ row : Refund, row.Continues (change row))
    (linked : c.Linked) : c.Alike (c.onRefunds (·.modify id change)) := by
  have keeps : ∀ row : Refund, key (change row) = key row := fun row => (same row).facts.1
  have origin : ∀ row ∈ c.refunds.modify id change, ∃ old ∈ c.refunds, old.id = row.id ∧
      old.Continues row := Table.same_of_modify keeps Refund.Continues.refl same
  have progress : c.Progress (c.onRefunds (·.modify id change)) :=
    { Progress.refl c with refunds := Table.kept_modify keeps same Refund.Continues.refl }
  have files := linked.refunds.modify (k := id) keeps fun row => (same row).facts.2.2.2.1
  have links : (c.onRefunds (·.modify id change)).Linked := by
    refine ⟨⟨linked.payments.stored, linked.payments.own⟩, ⟨files.stored, files.own⟩,
      ⟨linked.payouts.stored, linked.payouts.own⟩, linked.transactionNames,
      linked.refundNames.modify keeps fun row => (same row).facts.2.1, linked.payoutNames,
      linked.credited, fun row member => ?_, linked.payingOut, fun row member => ?_,
      linked.payoutStatus⟩
    · obtain ⟨old, there, -, its⟩ := origin row member
      obtain ⟨-, -, paymentId, -, amount, walletId, debit, hold, -, -⟩ := its.facts
      rw [amount, debit, hold, paymentId, walletId]
      exact linked.refunding old there
    · obtain ⟨old, there, -, its⟩ := origin row member
      rw [its.facts.2.2.2.1]
      exact linked.refundStatus old there
  have held : ∀ walletId, (c.refunds.modify id change).sum (c.refundHold walletId) =
      c.refunds.sum (c.refundHold walletId) := fun walletId => Table.sum_modify_same keeps fun row => by
    obtain ⟨-, -, -, transactionId, -, wallet, debit, -⟩ := (same row).facts
    simp only [refundHold, transactionId, wallet, debit]
  have totals : ∀ statuses paymentId, (c.refunds.modify id change).sum (c.refunded statuses paymentId) =
      c.refunds.sum (c.refunded statuses paymentId) := fun statuses paymentId =>
    Table.sum_modify_same keeps fun row => by
      obtain ⟨-, -, payment, transactionId, amount, -⟩ := (same row).facts
      simp only [refunded, transactionId, payment, amount]
  refine ⟨progress, ⟨fun walletId => ?_, fun statuses paymentId => ?_⟩, links, rfl, rfl, rfl, rfl,
    fun _ => rfl, fun wallet member => ⟨wallet, member, rfl, fun _ => rfl⟩,
    fun row member => ⟨row, member, rfl, .refl row, rfl, rfl⟩, fun row member => ?_⟩
  · exact congrArg (· + c.payouts.sum (c.payoutHold walletId)) (held walletId)
  · rw [totalOf_eq, totalOf_eq]
    exact totals statuses paymentId
  · obtain ⟨old, there, own, its⟩ := origin row member
    exact ⟨old, there, own, its.facts.2.2.2.1.symm⟩

theorem alike_payout {change : Payout → Payout} (same : ∀ row : Payout, row.Continues (change row))
    (linked : c.Linked) : c.Alike (c.onPayouts (·.modify id change)) := by
  have keeps : ∀ row : Payout, key (change row) = key row := fun row => (same row).facts.1
  have origin : ∀ row ∈ c.payouts.modify id change, ∃ old ∈ c.payouts, old.id = row.id ∧
      old.Continues row := Table.same_of_modify keeps Payout.Continues.refl same
  have progress : c.Progress (c.onPayouts (·.modify id change)) :=
    { Progress.refl c with payouts := Table.kept_modify keeps same Payout.Continues.refl }
  have files := linked.payouts.modify (k := id) keeps fun row => (same row).facts.2.2.1
  have links : (c.onPayouts (·.modify id change)).Linked := by
    refine ⟨⟨linked.payments.stored, linked.payments.own⟩,
      ⟨linked.refunds.stored, linked.refunds.own⟩, ⟨files.stored, files.own⟩, linked.transactionNames,
      linked.refundNames, linked.payoutNames.modify keeps fun row => (same row).facts.2.1,
      linked.credited, linked.refunding, fun row member => ?_, linked.refundStatus,
      fun row member => ?_⟩
    · obtain ⟨old, there, -, its⟩ := origin row member
      obtain ⟨-, -, transactionId, walletId, amount, currency⟩ := its.facts
      rw [amount, transactionId, walletId, currency]
      exact linked.payingOut old there
    · obtain ⟨old, there, -, its⟩ := origin row member
      rw [its.facts.2.2.1]
      exact linked.payoutStatus old there
  have held : ∀ walletId, (c.payouts.modify id change).sum (c.payoutHold walletId) =
      c.payouts.sum (c.payoutHold walletId) := fun walletId => Table.sum_modify_same keeps fun row => by
    obtain ⟨-, -, transactionId, wallet, amount, -⟩ := (same row).facts
    simp only [payoutHold, transactionId, wallet, amount]
  refine ⟨progress, ⟨fun walletId => ?_, fun statuses paymentId => rfl⟩, links, rfl, rfl, rfl, rfl,
    fun _ => rfl, fun wallet member => ⟨wallet, member, rfl, fun _ => rfl⟩,
    fun row member => ⟨row, member, rfl, .refl row, rfl, rfl⟩, fun row member => ⟨row, member, rfl, rfl⟩⟩
  exact congrArg (c.refunds.sum (c.refundHold walletId) + ·) (held walletId)

/-- The provider's reference of a payment. -/
theorem alike_payment {change : Payment → Payment} (keeps : ∀ row, key (change row) = key row)
    (same : ∀ row, Payment.Continues row (change row)) (hold : ∀ row, Payment.SameHold row (change row))
    (linked : c.Linked) : c.Alike (c.onPayments (·.modify id change)) := by
  have passed : checkUpdate checkPayment change (c.payments.find? id) = .ok () := by
    cases found : c.payments.find? id with
    | none => rfl
    | some row =>
      have nonneg := (linked.credited row (Table.find?_some found).1).2.1
      rw [checkUpdate, checkPayment, (hold row).1, if_neg (by omega)]
  have changed : PaymentChanged id change c (c.onPayments (·.modify id change)) := ⟨passed, rfl⟩
  refine ⟨.paymentChanged keeps same changed, ⟨fun _ => rfl, fun _ _ => rfl⟩,
    linked.paymentChanged keeps same changed, rfl, rfl, rfl, rfl, fun walletId => ?_,
    fun wallet member => ⟨wallet, member, rfl, fun _ => rfl⟩, ?_,
    fun row member => ⟨row, member, rfl, rfl⟩⟩
  · exact Table.sum_modify_same keeps fun row => by rw [(same row).2.2.1, (hold row).1]
  · exact Table.same_of_modify keeps (fun row => ⟨.refl row, rfl, rfl⟩) fun row => ⟨same row, hold row⟩

/-- The status of a wallet. -/
theorem alike_wallet (status : WalletStatus) (linked : c.Linked) :
    c.Alike (c.onWallets (·.modify id fun wallet => { wallet with status := status })) := by
  have keeps : ∀ wallet : Wallet, key { wallet with status := status } = key wallet := fun _ => rfl
  have progress : c.Progress (c.onWallets (·.modify id fun wallet => { wallet with status := status })) :=
    { Progress.refl c with
      wallets := Table.kept_modify keeps (fun _ => ⟨rfl, fun balance => by cases balance <;> rfl⟩)
        Wallet.Continues.refl }
  have kept : ∀ wallet ∈ c.wallets, ∃ row ∈ c.wallets.modify id fun wallet =>
      { wallet with status := status }, row.id = wallet.id ∧ row.currency = wallet.currency := by
    intro wallet member
    obtain ⟨row, found, same⟩ := progress.wallets wallet.id wallet (Table.find?_of_mem member)
    exact ⟨row, (Table.find?_some found).1, (Table.find?_some found).2, same.1⟩
  refine ⟨progress, ⟨fun _ => rfl, fun _ _ => rfl⟩, ?_, rfl, rfl, rfl, rfl, fun _ => rfl, ?_,
    fun row member => ⟨row, member, rfl, .refl row, rfl, rfl⟩, fun row member => ⟨row, member, rfl, rfl⟩⟩
  · refine ⟨⟨linked.payments.stored, linked.payments.own⟩, ⟨linked.refunds.stored, linked.refunds.own⟩,
      ⟨linked.payouts.stored, linked.payouts.own⟩, linked.transactionNames, linked.refundNames,
      linked.payoutNames, fun payment member => ?_, linked.refunding, fun payout member => ?_,
      linked.refundStatus, linked.payoutStatus⟩
    · obtain ⟨amount, pending, ⟨wallet, there, own⟩, fee⟩ := linked.credited payment member
      obtain ⟨row, listed, its, -⟩ := kept wallet there
      exact ⟨amount, pending, ⟨row, listed, its.trans own⟩, fee⟩
    · obtain ⟨amount, fee, wallet, there, own, currency⟩ := linked.payingOut payout member
      obtain ⟨row, listed, its, same⟩ := kept wallet there
      exact ⟨amount, fee, row, listed, its.trans own, same.trans currency⟩
  · exact Table.same_of_modify keeps (fun _ _ => rfl) fun _ balance => by cases balance <;> rfl

end Db

end Finstack
