import Finstack.Soundness.Books.Commits

/-! # Payouts keep the books

What the commits of a payout's request, completion, failure and reversal leave.
-/

namespace Finstack

open Foundation Services LedgerService

variable {c b : Db}

/-! ## The request -/

/-- A payout request commits: the transaction with its fee, the hold and the payout. -/
inductive PayoutRequested (c : Db) : Db → Prop
  | intro {wallet : Wallet} {row : Transaction} {payout : Payout} {m₁ m₂ m₃ : Db}
      (member : wallet ∈ c.wallets)
      (type : row.type = .withdrawal) (status : row.status = .processing) (fee : 0 ≤ row.feeAmount)
      (name : Colonless row.reference) (plain : Colonless payout.reference)
      (mine : payout.walletId = wallet.id ∧ payout.currency = wallet.currency ∧
        payout.transactionId = row.id)
      (created : Created row c m₁)
      (held : Shifted wallet .available .reserved (payout.amount + row.feeAmount)
        (postingReference .payoutHold payout.reference) m₁ m₂)
      (filed : PayoutFiled payout m₂ m₃) : PayoutRequested c m₃.cleared

theorem PayoutRequested.books (books : c.Books) (requested : PayoutRequested c b) :
    c.Continues b ∧ b.Books := by
  obtain @⟨wallet, row, payout, m₁, m₂, m₃, member, type, status, fee, name, plain,
    ⟨walletId, itsCurrency, own⟩, created, held, filed⟩ := requested
  obtain ⟨positive, unfiled, -⟩ := Db.checkNewPayout_ok filed.1
  obtain ⟨ledger, rfl, moves⟩ := held.moves member
  obtain rfl := filed.2
  have unused := Db.checkNewTransaction_ok created.1
  have linked₁ := books.linked.created name created
  have sums := Db.SameSums.created books.linked created
  have progress₁ := Db.Progress.created created
  have refunds : ∀ refund ∈ c.refunds,
      m₁.statusOf refund.transactionId = c.statusOf refund.transactionId := by
    intro refund there
    obtain ⟨_, here, -⟩ := books.linked.refunds.stored refund there
    exact (Db.statusOf_created created here).1
  obtain rfl := created.2
  have created₂ : (c.transactions.insert row).find? payout.transactionId = some row := by
    rw [own]
    exact Table.find?_insert_self unused.1
  have fresh : ∀ other ∈ c.payouts, other.transactionId ≠ payout.transactionId := by
    intro other there same
    obtain ⟨old, here, -⟩ := books.linked.payouts.stored other there
    rw [same, own, unused.1] at here
    cases here
  have linked := ((linked₁.onLedger fun _ => ledger).payoutFiled filed created₂ type status fee fresh
    plain ⟨wallet, member, walletId.symm, itsCurrency.symm⟩).onLedger Ledger.clearDeferred
  have progress := ((progress₁.trans (.moved moves)).trans (.payoutFiled filed)).trans (.cleared _)
  have holds : ∀ id, (Db.onLedger (fun _ => ledger) (c.onTransactions (·.insert row))).payoutHold id
      payout = if wallet.id = id then payout.amount + row.feeAmount else 0 := by
    intro id
    have processing : (Db.onLedger (fun _ => ledger) (c.onTransactions (·.insert row))).statusOf
        payout.transactionId = some .processing :=
      (Db.statusOf_of_find? created₂).trans (congrArg some status)
    have due : (Db.onLedger (fun _ => ledger) (c.onTransactions (·.insert row))).feeOf
        payout.transactionId = row.feeAmount :=
      congrArg (fun found : Option Transaction => found.elim 0 (·.feeAmount)) created₂
    rw [Db.payoutHold, processing, due, walletId]
    simp
  refine ⟨{ progress with
      successes := Db.successes_of fun other there now => ⟨there, (refunds other there).symm.trans now⟩
      released := fun settled used => .inl ((Db.settled_of_moves moves rfl used).resolve_right ?_) },
    books.commit progress linked moves rfl ⟨rfl, rfl⟩ (fun other => ?_) (fun other => ?_) ?_ ?_ ?_ ?_
    fun quote there reference _ => .inl there⟩
  · rw [List.mem_singleton]
    exact fun same => by cases (postingReference_inj (colonless_uuidText settled) plain same).1
  · simp
    rfl
  · refine (Db.heldOf_payoutFiled filed other).trans ?_
    rw [holds]
    refine (congrArg (· + _) (sums.held other)).trans ?_
    simp
  · intro used listed
    obtain rfl := List.mem_singleton.mp listed
    exact ⟨.payoutHold, payout.reference, plain, rfl, payout,
      (Table.mem_insert unfiled).mpr (.inr rfl), rfl⟩
  · exact fun payment here _ => Table.find?_of_mem here
  · exact books.reversed.commit progress (fun row there => ⟨row, there, rfl, .refl row⟩)
      fun id => sums.totals _ id
  · exact books.uncredited.commit progress fun row here => ⟨row, here, .refl row, .inl rfl⟩

/-! ## The ends -/

/-- A payout's transaction moves on, with postings for its wallet. -/
theorem Db.Books.payoutMoves (books : c.Books) {payout : Payout} {row : Transaction} {ledger : Ledger}
    {reserved : Int} {references : List String} {status : TransactionStatus}
    {patch : Requests.TransitionPatch} {event : OutboxEvent} {m : Db}
    (listed : payout ∈ c.payouts) (found : c.transactions.find? payout.transactionId = some row)
    (moves : LedgerMoves c.wallets payout.walletId 0 reserved references c.ledger ledger)
    (moved : Transitioned payout.transactionId status patch (c.onLedger fun _ => ledger) m)
    (next : status = .processing ∨ status = .successful ∨ status = .failed ∨ status = .reversed)
    (held : ∀ id, m.payoutHold id payout - c.payoutHold id payout =
      if payout.walletId = id then reserved else 0)
    (ours : ∀ reference ∈ references, ∃ purpose, purpose ≠ .settlement ∧
      reference = postingReference purpose payout.reference ∧
      (m.addEvent event).cleared.Done payout.reference purpose) :
    c.Continues (m.addEvent event).cleared ∧ (m.addEvent event).cleared.Books := by
  have plain := books.linked.payoutNames.plain payout listed
  have type : row.type = .withdrawal := by
    obtain ⟨its, here, type⟩ := books.linked.payouts.stored payout listed
    rwa [Option.some.inj (found.symm.trans here)]
  have linked₁ : (c.onLedger fun _ => ledger).Linked := books.linked.onLedger _
  have linked₂ := linked₁.transitioned moved found ⟨fun other => by simp [type] at other, fun _ => next⟩
  have sums := Db.PayoutMoves.transitioned linked₁ listed moved
  have progress := (((Db.Progress.moved moves).trans (.transitioned moved)).trans (.told event _)).trans
    (.cleared _)
  have refunds : ∀ refund ∈ c.refunds, m.statusOf refund.transactionId =
      c.statusOf refund.transactionId := by
    intro refund there
    rw [Db.statusOf_transitioned moved, if_neg]
    · rfl
    · exact (books.linked.refunds.apart books.linked.payouts (by decide) refund there payout listed).symm
  have heldOf : ∀ id, m.heldOf id = c.heldOf id + if payout.walletId = id then reserved else 0 :=
    fun id => (sums.held id).trans (congrArg (c.heldOf id + ·) (held id))
  have totals : ∀ id, RefundsService.totalOf [.successful] id m =
      RefundsService.totalOf [.successful] id c := fun id => sums.totals _ id
  obtain rfl := moved.2
  refine ⟨{ progress with
      successes := Db.successes_of fun refund there now => ⟨there, (refunds refund there).symm.trans now⟩
      released := fun id used => .inl ((Db.settled_of_moves moves rfl used).resolve_right ?_) },
    books.commit progress (linked₂.congr rfl rfl rfl rfl rfl) moves rfl ⟨rfl, rfl⟩ (fun id => ?_) heldOf ?_ ?_ ?_
      ?_ fun quote there reference _ => .inl there⟩
  · intro mine
    obtain ⟨purpose, other, same, -⟩ := ours _ mine
    exact other (postingReference_inj (colonless_uuidText id) plain same).1.symm
  · simp
    rfl
  · intro used mine
    obtain ⟨purpose, -, same, done⟩ := ours used mine
    exact ⟨purpose, payout.reference, plain, same, done⟩
  · exact fun payment here _ => Table.find?_of_mem here
  · exact books.reversed.commit progress (fun row there => ⟨row, there, rfl, .refl row⟩) totals
  · exact books.uncredited.commit progress fun row here => ⟨row, here, .refl row, .inl rfl⟩

/-- A payout completes: its amount and its fee leave the wallet's reserved balance. -/
inductive PayoutCompleted (c : Db) : Db → Prop
  | intro {payout : Payout} {row : Transaction} {wallet : Wallet} {patch : Requests.TransitionPatch}
      {event : OutboxEvent} {m₁ m₂ m₃ : Db}
      (listed : payout ∈ c.payouts)
      (found : c.transactions.find? payout.transactionId = some row) (status : row.status = .processing)
      (member : wallet ∈ c.wallets) (walletId : wallet.id = payout.walletId)
      (left : Drawn c wallet .reserved payout.amount (postingReference .payout payout.reference) c m₁)
      (charged : 0 < row.feeAmount ∧ Drawn c wallet .reserved row.feeAmount
          (postingReference .payoutFee payout.reference) m₁ m₂ ∨ ¬ 0 < row.feeAmount ∧ m₂ = m₁)
      (moved : Transitioned payout.transactionId .successful patch m₂ m₃) :
      PayoutCompleted c (m₃.addEvent event).cleared

theorem PayoutCompleted.books (books : c.Books) (completed : PayoutCompleted c b) :
    c.Continues b ∧ b.Books := by
  obtain @⟨payout, row, wallet, patch, event, m₁, m₂, m₃, listed, found, status, member, walletId, left,
    charged, moved⟩ := completed
  have due : c.feeOf payout.transactionId = row.feeAmount := by rw [Db.feeOf, found, Option.elim_some]
  obtain ⟨-, fee, -⟩ := books.linked.payingOut payout listed
  obtain ⟨ledger₁, rfl, moves₁⟩ := left.moves (.refl c) member
  obtain ⟨ledger, references, rfl, moves, ours⟩ : ∃ ledger references,
      m₂ = c.onLedger (fun _ => ledger) ∧ LedgerMoves c.wallets wallet.id 0
        (-(payout.amount + row.feeAmount)) references c.ledger ledger ∧
      ∀ reference ∈ references, reference = postingReference .payout payout.reference ∨
        reference = postingReference .payoutFee payout.reference := by
    rcases charged with ⟨-, drawn⟩ | ⟨none, rfl⟩
    · obtain ⟨ledger₂, rfl, moves₂⟩ := drawn.moves (.moved moves₁) member
      have both := moves₁.trans moves₂
      simp only [reduceCtorEq, if_false, if_true, add_zero, ← neg_add] at both
      exact ⟨ledger₂, _, rfl, both, by simp⟩
    · obtain nothing : row.feeAmount = 0 := by omega
      rw [nothing, add_zero]
      exact ⟨ledger₁, _, rfl, by simpa using moves₁,
        fun reference mine => .inl (List.mem_singleton.mp mine)⟩
  rw [walletId] at moves
  have before : c.statusOf payout.transactionId = some .processing := by
    rw [Db.statusOf_of_find? found, status]
  have now : m₃.statusOf payout.transactionId = some .successful := by
    rw [Db.statusOf_transitioned moved, if_pos rfl]
    exact congrArg (Option.map _) before
  refine books.payoutMoves listed found moves moved (.inr (.inl rfl)) (fun id => ?_) ?_
  · rw [Db.payoutHold, Db.payoutHold, now, before, due]
    by_cases own : payout.walletId = id <;> simp [own]
  · have payouts : m₃.payouts = c.payouts := by rw [moved.2]; rfl
    intro reference mine
    rcases ours reference mine with rfl | rfl
    · exact ⟨.payout, by simp, rfl, payout, payouts ▸ listed, rfl, .inl now⟩
    · exact ⟨.payoutFee, by simp, rfl, payout, payouts ▸ listed, rfl, .inl now⟩

/-- A payout fails: what it held is available again. -/
inductive PayoutFailed (c : Db) : Db → Prop
  | intro {payout : Payout} {row : Transaction} {wallet : Wallet} {patch : Requests.TransitionPatch}
      {event : OutboxEvent} {m₁ m₂ : Db}
      (listed : payout ∈ c.payouts)
      (found : c.transactions.find? payout.transactionId = some row) (status : row.status = .processing)
      (member : wallet ∈ c.wallets) (walletId : wallet.id = payout.walletId)
      (released : Shifted wallet .reserved .available (payout.amount + row.feeAmount)
        (postingReference .payoutRelease payout.reference) c m₁)
      (moved : Transitioned payout.transactionId .failed patch m₁ m₂) :
      PayoutFailed c (m₂.addEvent event).cleared

theorem PayoutFailed.books (books : c.Books) (failed : PayoutFailed c b) : c.Continues b ∧ b.Books := by
  obtain @⟨payout, row, wallet, patch, event, m₁, m₂, listed, found, status, member, walletId, released,
    moved⟩ := failed
  have due : c.feeOf payout.transactionId = row.feeAmount := by rw [Db.feeOf, found, Option.elim_some]
  obtain ⟨ledger, rfl, moves⟩ := released.moves member
  rw [walletId] at moves
  have before : c.statusOf payout.transactionId = some .processing := by
    rw [Db.statusOf_of_find? found, status]
  have now : m₂.statusOf payout.transactionId = some .failed := by
    rw [Db.statusOf_transitioned moved, if_pos rfl]
    exact congrArg (Option.map _) before
  refine books.payoutMoves listed found moves moved (.inr (.inr (.inl rfl))) (fun id => ?_) ?_
  · rw [Db.payoutHold, Db.payoutHold, now, before, due]
    by_cases own : payout.walletId = id <;> simp [own]
  · have payouts : m₂.payouts = c.payouts := by rw [moved.2]; rfl
    intro reference mine
    obtain rfl := List.mem_singleton.mp mine
    exact ⟨.payoutRelease, by simp, rfl, payout, payouts ▸ listed, rfl, now⟩

/-- A completed payout comes back: its amount and its fee are available again. -/
inductive PayoutReversed (c : Db) : Db → Prop
  | intro {payout : Payout} {row : Transaction} {wallet : Wallet} {patch : Requests.TransitionPatch}
      {event : OutboxEvent} {m₁ m₂ m₃ : Db}
      (listed : payout ∈ c.payouts)
      (found : c.transactions.find? payout.transactionId = some row) (status : row.status = .successful)
      (member : wallet ∈ c.wallets) (walletId : wallet.id = payout.walletId)
      (returned : Paid c wallet .available payout.amount
        (postingReference .payoutReversal payout.reference) c m₁)
      (refunded : 0 < row.feeAmount ∧ Paid c wallet .available row.feeAmount
          (postingReference .payoutFeeRefund payout.reference) m₁ m₂ ∨ ¬ 0 < row.feeAmount ∧ m₂ = m₁)
      (moved : Transitioned payout.transactionId .reversed patch m₂ m₃) :
      PayoutReversed c (m₃.addEvent event).cleared

theorem PayoutReversed.books (books : c.Books) (reversed : PayoutReversed c b) :
    c.Continues b ∧ b.Books := by
  obtain @⟨payout, row, wallet, patch, event, m₁, m₂, m₃, listed, found, status, member, walletId,
    returned, refunded, moved⟩ := reversed
  obtain ⟨ledger₁, rfl, moves₁⟩ := returned.moves (.refl c) member
  obtain ⟨ledger, references, rfl, moves, ours⟩ : ∃ ledger references,
      m₂ = c.onLedger (fun _ => ledger) ∧
      LedgerMoves c.wallets wallet.id 0 0 references c.ledger ledger ∧
      ∀ reference ∈ references, reference = postingReference .payoutReversal payout.reference ∨
        reference = postingReference .payoutFeeRefund payout.reference := by
    rcases refunded with ⟨-, paid⟩ | ⟨none, rfl⟩
    · obtain ⟨ledger₂, rfl, moves₂⟩ := paid.moves (.moved moves₁) member
      exact ⟨ledger₂, _, rfl, by simpa using moves₁.trans moves₂, by simp⟩
    · exact ⟨ledger₁, _, rfl, by simpa using moves₁,
        fun reference mine => .inl (List.mem_singleton.mp mine)⟩
  rw [walletId] at moves
  have before : c.statusOf payout.transactionId = some .successful := by
    rw [Db.statusOf_of_find? found, status]
  have now : m₃.statusOf payout.transactionId = some .reversed := by
    rw [Db.statusOf_transitioned moved, if_pos rfl]
    exact congrArg (Option.map _) before
  refine books.payoutMoves listed found moves moved (.inr (.inr (.inr rfl))) (fun id => ?_) ?_
  · rw [Db.payoutHold, Db.payoutHold, now, before]
    simp
  · have payouts : m₃.payouts = c.payouts := by rw [moved.2]; rfl
    intro reference mine
    rcases ours reference mine with rfl | rfl
    · exact ⟨.payoutReversal, by simp, rfl, payout, payouts ▸ listed, rfl, now⟩
    · exact ⟨.payoutFeeRefund, by simp, rfl, payout, payouts ▸ listed, rfl, now⟩

end Finstack
