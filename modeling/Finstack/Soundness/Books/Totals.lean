import Finstack.Soundness.Books.Discipline

/-! # What others leave of a payment's refunds

While the reserved balance of its wallet is locked, nobody changes what is successful. And a settlement
hold does not end under the payment's lock.
-/

namespace Finstack

open Foundation Discipline Services

namespace Db

variable {c c' : Db}

/-- What is kept of a refund under both commits. -/
theorem Continues.refund (continues : c.Continues c') {id : Uuid} {row row' : Refund}
    (found : c.refunds.find? id = some row) (found' : c'.refunds.find? id = some row') :
    row.Continues row' := by
  obtain ⟨row'', there, same⟩ := continues.refunds id row found
  obtain rfl := Option.some.inj (found'.symm.trans there)
  exact same

theorem Continues.status (continues : c.Continues c') {id : Uuid} {status : TransactionStatus}
    (before : c.statusOf id = some status) :
    ∃ status', c'.statusOf id = some status' ∧ status.Later status' := by
  obtain ⟨row, found, rfl⟩ := Option.map_eq_some_iff.mp before
  obtain ⟨row', found', same⟩ := continues.transactions id row found
  exact ⟨row'.status, statusOf_of_find? found', same.status⟩

theorem Linked.refund_status (linked : c.Linked) {refund : Refund} (member : refund ∈ c.refunds) :
    ∃ status, c.statusOf refund.transactionId = some status ∧
      (status = .processing ∨ status = .successful ∨ status = .failed) := by
  obtain ⟨row, found, -⟩ := linked.refunds.stored refund member
  have here := statusOf_of_find? found
  exact ⟨row.status, here, linked.refundStatus refund member _ here⟩

/-- Without a posting on its wallet's reserved balance, no refund of a payment succeeds. -/
theorem Continues.totalOf_successful (continues : c.Continues c') (books : c.Books)
    (books' : c'.Books) {payment : Payment} {wallet : Wallet} (there : payment ∈ c.payments)
    (member : wallet ∈ c.wallets) (mine : wallet.id = payment.walletId)
    (quiet : c.ledger.entriesOn wallet.reservedAccountId =
      c'.ledger.entriesOn wallet.reservedAccountId) :
    RefundsService.totalOf [.successful] payment.id c' =
      RefundsService.totalOf [.successful] payment.id c := by
  -- a refund of this payment that is successful now was so before
  have before : ∀ refund ∈ c'.refunds, refund.paymentId = payment.id →
      c'.statusOf refund.transactionId = some .successful →
      (c.refunds.find? refund.id).isSome ∧ c.statusOf refund.transactionId = some .successful := by
    intro refund here own status
    rcases continues.successes refund here status with same | ⟨other, listed, its, moved⟩
    · exact same
    · obtain ⟨-, -, -, -, payment', there', same, walletId⟩ := books'.linked.refunding refund here
      obtain ⟨row', found', -, -, kept, -⟩ :=
        continues.payments payment.id payment (Table.find?_of_mem there)
      have again : c'.payments.find? payment'.id = some payment' := Table.find?_of_mem there'
      rw [same, own] at again
      obtain rfl := Option.some.inj (again.symm.trans found')
      have one : other.id = wallet.id := by rw [its, ← walletId, kept, mine]
      obtain rfl := Table.eq_of_key listed member one
      exact (moved quiet).elim
  rw [totalOf_eq, totalOf_eq]
  refine Table.sum_alike fun id => ?_
  cases found' : c'.refunds.find? id with
  | none =>
    cases found : c.refunds.find? id with
    | none => rw [Table.worth_of_none found', Table.worth_of_none found]
    | some row =>
      obtain ⟨_, still, -⟩ := continues.refunds id row found
      rw [found'] at still
      cases still
  | some row' =>
    obtain ⟨here, rfl⟩ := Table.find?_some found'
    rw [Table.worth_of_find? found', refunded]
    cases found : c.refunds.find? (key row') with
    | none =>
      rw [Table.worth_of_none found, if_neg]
      rintro ⟨own, status⟩
      have successful : c'.statusOf row'.transactionId = some .successful := by
        cases now : c'.statusOf row'.transactionId with
        | none => simp [now] at status
        | some now' => simpa [now] using status
      obtain ⟨old, -⟩ := before row' here own successful
      have absent : c.refunds.find? row'.id = none := found
      rw [absent] at old
      cases old
    | some row =>
      have kept := continues.refund found found'
      have transactionId : row'.transactionId = row.transactionId := by rw [kept]
      have amount : row'.amount = row.amount := by rw [kept]
      have paymentId : row'.paymentId = row.paymentId := by rw [kept]
      rw [Table.worth_of_find? found, refunded, amount, paymentId]
      refine if_congr (and_congr_right fun own => ?_) rfl rfl
      obtain ⟨old, past, which⟩ := books.linked.refund_status (Table.find?_some found).1
      obtain ⟨new, after, later⟩ := continues.status past
      rw [transactionId, after, past]
      have now := books'.linked.refundStatus row' here new (transactionId ▸ after)
      have back : new = .successful → old = .successful := by
        rintro rfl
        have := (before row' here (paymentId.trans own) (transactionId ▸ after)).2
        rw [transactionId, past] at this
        exact Option.some.inj this
      rcases which with rfl | rfl | rfl
      · rcases now with rfl | rfl | rfl <;> simp at back ⊢
      · rcases later.of_successful with rfl | rfl
        · rfl
        · simp at now
      · obtain rfl := later.of_terminal rfl
        simp

end Db

namespace Services

/-- With the wallet's reserved balance locked, this much of a payment is refunded. -/
def refundedBy (paymentId : Uuid) (accountId : Uuid) (amount : Int) : Knowing where
  holds held c := RowLock.account accountId ∈ held ∧
    (∃ payment ∈ c.payments, payment.id = paymentId ∧ ∃ wallet ∈ c.wallets,
      wallet.id = payment.walletId ∧ wallet.reservedAccountId = accountId) ∧
    RefundsService.totalOf [.successful] paymentId c = amount
  keeps := by
    rintro held c c' ⟨books, ⟨continues, books'⟩, same⟩
      ⟨mine, ⟨payment, there, rfl, wallet, member, own, rfl⟩, total⟩
    have guarded := same _ mine
    simp only [Db.same_observed, Db.observe, Db.Observed.account.injEq] at guarded
    refine ⟨mine, ?_, (continues.totalOf_successful books books' there member own guarded.2).trans
      total⟩
    obtain ⟨payment', found, -, -, walletId, -⟩ :=
      continues.payments payment.id payment (Table.find?_of_mem there)
    obtain ⟨wallet', found', -, accounts⟩ :=
      continues.wallets wallet.id wallet (Table.find?_of_mem member)
    obtain ⟨there', same'⟩ := Table.find?_some found
    obtain ⟨member', own'⟩ := Table.find?_some found'
    have walletOwn : wallet'.id = payment'.walletId := by
      rw [walletId, ← own]
      exact own'
    exact ⟨payment', there', same', wallet', member', walletOwn, accounts .reserved⟩
  more subset known := ⟨subset _ known.1, known.2⟩

/-- The settlement hold of a locked payment has not ended. -/
def unreleased (paymentId : Uuid) : Knowing where
  holds held c := RowLock.payment paymentId ∈ held ∧ ¬ c.Settled paymentId
  keeps := by
    rintro held c c' ⟨-, ⟨continues, -⟩, same⟩ ⟨mine, holding⟩
    have guarded := same _ mine
    simp only [Db.same_observed, Db.observe, Db.Observed.payment.injEq] at guarded
    refine ⟨mine, fun ended => ?_⟩
    rcases continues.released paymentId ended with before | changed
    · exact holding before
    · exact changed guarded
  more subset known := ⟨subset _ known.1, known.2⟩

end Services

end Finstack
