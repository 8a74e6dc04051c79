import Finstack.Soundness.Books.Commits

/-! # Refunds keep the books

What the commits of a refund's request, completion and failure leave.
-/

namespace Finstack

open Foundation Services LedgerService

variable {c b : Db}

/-- A change of what is left in a payment's settlement hold. -/
abbrev HeldAmountSet (payment : Payment) (pendingAmount : Int) : Db → Db → Prop :=
  PaymentChanged payment.id fun row => { row with pendingAmount := pendingAmount }

/-! ## The request -/

/-- A refund request commits: the transaction, the hold, what it takes from the settlement hold, and
the refund. -/
inductive RefundRequested (c : Db) : Db → Prop
  | intro {payment : Payment} {wallet : Wallet} {row : Transaction} {refund : Refund}
      {input : PostingInput} {id : Uuid} {total : Int} {m₁ m₂ m₃ m₄ : Db}
      (found : c.payments.find? payment.id = some payment)
      (member : wallet ∈ c.wallets) (walletId : wallet.id = payment.walletId)
      (type : row.type = .refund) (status : row.status = .processing) (name : Colonless row.reference)
      (plain : Colonless refund.reference)
      (mine : refund.paymentId = payment.id ∧ refund.walletId = wallet.id ∧
        refund.transactionId = row.id ∧
        refund.pendingHoldAmount = RefundsService.fromPending payment refund.walletDebitAmount)
      (reference : input.reference = postingReference .refundHold refund.reference)
      (entries : input.entries = WalletsService.splitEntries wallet refund.walletDebitAmount
        refund.pendingHoldAmount .debit)
      (created : Created row c m₁) (posts : Posts id input total m₁ m₂)
      (taken : 0 < refund.pendingHoldAmount ∧
          HeldAmountSet payment (payment.pendingAmount - refund.pendingHoldAmount) m₂ m₃ ∨
        ¬ 0 < refund.pendingHoldAmount ∧ m₃ = m₂)
      (filed : RefundFiled refund m₃ m₄) : RefundRequested c m₄.cleared

theorem RefundRequested.books (books : c.Books) (requested : RefundRequested c b) :
    c.Continues b ∧ b.Books := by
  obtain @⟨payment, wallet, row, refund, input, id, total, m₁, m₂, m₃, m₄, found, member, walletId,
    type, status, name, plain, ⟨paymentId, mine, own, hold⟩, reference, entries, created,
    posts, taken, filed⟩ := requested
  have listed : payment ∈ c.payments := (Table.find?_some found).1
  obtain ⟨amount, debit, unfiled, -⟩ := Db.checkNewRefund_ok filed.1
  obtain ⟨-, pendingNonneg, -, -⟩ := books.linked.credited payment listed
  have holds : 0 ≤ refund.pendingHoldAmount ∧ refund.pendingHoldAmount ≤ refund.walletDebitAmount ∧
      refund.pendingHoldAmount ≤ payment.pendingAmount := by
    rw [hold, RefundsService.fromPending]
    split_ifs <;> omega
  obtain ⟨nonneg, less, covered⟩ := holds
  -- the payment may have changed
  obtain ⟨payments, rfl, moves, touched⟩ : ∃ payments, m₃ = m₂.onPayments (fun _ => payments) ∧
      HoldMoves payment (-refund.pendingHoldAmount) c.payments payments ∧
      (0 < payment.pendingAmount ∨ payments = c.payments) := by
    have same : m₂.payments = c.payments := by rw [posts.result, created.2]; rfl
    rcases taken with ⟨some, changed⟩ | ⟨none, rfl⟩
    · obtain ⟨result, moves⟩ := HoldMoves.changed (same ▸ found) changed (fun _ => rfl)
        fun _ => ⟨rfl, rfl, rfl, rfl, rfl⟩
      rw [same] at moves
      refine ⟨_, result.trans (by rw [same]), ?_, .inl (by omega)⟩
      convert moves using 1
      ring
    · have zero : -refund.pendingHoldAmount = 0 := by omega
      rw [zero, ← same]
      exact ⟨_, rfl, .refl payment _, .inr rfl⟩
  obtain rfl := created.2
  obtain rfl := posts.result
  obtain rfl := filed.2
  have unused := Db.checkNewTransaction_ok created.1
  have created₃ : (c.transactions.insert row).find? refund.transactionId = some row := by
    rw [own]
    exact Table.find?_insert_self unused.1
  have fresh : ∀ other ∈ c.refunds, other.transactionId ≠ refund.transactionId := by
    intro other there same
    obtain ⟨old, here, -⟩ := books.linked.refunds.stored other there
    rw [same, own, unused.1] at here
    cases here
  have linked₃ := moves.linked (Db.onLedger (posted id input total) (c.onTransactions (·.insert row)))
    rfl ((books.linked.created name created).posted posts)
  obtain ⟨keptPayment, kept, same⟩ := moves.kept payment.id payment found
  have linked := (linked₃.refundFiled filed created₃ type status fresh plain ⟨nonneg, less⟩
    ⟨keptPayment, (Table.find?_some kept).1, (Table.find?_some kept).2.trans paymentId.symm,
      same.2.2.1.trans (walletId.symm.trans mine.symm)⟩).onLedger Ledger.clearDeferred
  have progress := ((((Db.Progress.created created).trans (.posted posts)).trans
    (.held moves.kept)).trans (.refundFiled filed)).trans (.cleared _)
  have ledger := LedgerMoves.posted posts.postable fun known =>
    Gains.split known member nonneg less entries
  have sums : c.SameSums (Db.onPayments (fun _ => payments) (Db.onLedger (posted id input total)
      (c.onTransactions (·.insert row)))) :=
    (Db.SameSums.created books.linked created).trans (.congr rfl rfl rfl)
  have processing : (Db.onPayments (fun _ => payments) (Db.onLedger (posted id input total)
      (c.onTransactions (·.insert row)))).statusOf refund.transactionId = some .processing :=
    (Db.statusOf_of_find? created₃).trans (congrArg some status)
  refine ⟨{ progress with
      successes := Db.successes_of fun other there now => ?_
      released := fun settled used => .inl ((Db.settled_of_moves ledger rfl used).resolve_right ?_) },
    books.commit progress linked ledger rfl ⟨rfl, rfl⟩ (fun other => ?_) (fun other => ?_) ?_ ?_ ?_ ?_
    fun quote there reference _ => .inl there⟩
  · rcases (Table.mem_insert unfiled).mp there with old | rfl
    · obtain ⟨_, here, -⟩ := books.linked.refunds.stored other old
      exact ⟨old, (Db.statusOf_created created here).1.symm.trans now⟩
    · cases processing.symm.trans now
  · rw [List.mem_singleton, reference]
    exact fun same => by cases (postingReference_inj (colonless_uuidText settled) plain same).1
  · refine (moves.pending other).trans ?_
    rw [walletId]
    rfl
  · refine (Db.heldOf_refundFiled filed other).trans ?_
    rw [sums.held, Db.refundHold, processing, mine]
    simp [EntryDirection.opposite, EntryDirection.gain]
  · intro used listed
    obtain rfl := List.mem_singleton.mp listed
    exact ⟨.refundHold, refund.reference, plain, reference, refund,
      (Table.mem_insert unfiled).mpr (.inr rfl), rfl⟩
  · refine moves.settled (touched.imp_left fun positive used => ?_)
    obtain ⟨ended, here, its, nothing, -⟩ := books.journal.done (colonless_uuidText _) used
    obtain rfl := Table.eq_of_key here listed (uuidText_injective its)
    omega
  · refine moves.reversed books.reversed progress rfl fun id => ?_
    refine (Db.totalOf_refundFiled filed [.successful] id).trans ?_
    rw [sums.totals, Db.refunded, processing]
    simp
  · refine moves.uncredited books.uncredited listed progress rfl (touched.imp_left fun positive => ?_)
    refine progress.credited ?_
    by_contra before
    have nothing := (books.uncredited payment listed before).1
    omega

/-! ## The completion -/

/-- A refund completes: what it held leaves the wallet, and its payment is reversed if nothing of it is
left. -/
inductive RefundCompleted (c : Db) : Db → Prop
  | intro {refund : Refund} {row : Transaction} {payment : Payment} {wallet : Wallet}
      {input : PostingInput} {rest : List PostingEntry} {id : Uuid} {amount total : Int}
      {patch patch' : Requests.TransitionPatch} {event : OutboxEvent} {m₁ m₂ m₃ m₄ : Db}
      (listed : refund ∈ c.refunds)
      (found : c.transactions.find? refund.transactionId = some row) (status : row.status = .processing)
      (of : c.payments.find? refund.paymentId = some payment)
      (member : wallet ∈ c.wallets) (walletId : wallet.id = refund.walletId)
      (reference : input.reference = postingReference .refund refund.reference)
      (entries : input.entries = ⟨wallet.reservedAccountId, .debit, refund.walletDebitAmount⟩ :: rest)
      (others : ∀ entry ∈ rest, c.Coded entry.accountId)
      (posts : Posts id input amount c m₁)
      (charged : m₂ = m₁ ∨ ∃ (id : Uuid) (input : PostingInput) (amount : Int),
        input.reference = postingReference .refundSource refund.reference ∧
          (∀ entry ∈ input.entries, c.Coded entry.accountId) ∧ Posts id input amount m₁ m₂)
      (moved : Transitioned refund.transactionId .successful patch m₂ m₃)
      (sum : RefundsService.totalOf [.successful] payment.id m₃ = total)
      (full : total = payment.amount ∧ Transitioned payment.transactionId .reversed patch' m₃ m₄ ∨
        total ≠ payment.amount ∧ m₄ = m₃) : RefundCompleted c (m₄.addEvent event).cleared

theorem RefundCompleted.books (books : c.Books) (completed : RefundCompleted c b) :
    c.Continues b ∧ b.Books := by
  obtain @⟨refund, row, payment, wallet, input, rest, id, amount, total, patch, patch', event, m₁, m₂,
    m₃, m₄, listed, found, status, of, member, walletId, reference, entries, others, posts, charged,
    moved, sum, full⟩ := completed
  obtain ⟨there, paymentId⟩ := Table.find?_some of
  have plain := books.linked.refundNames.plain refund listed
  have type : row.type = .refund := by
    obtain ⟨its, here, type⟩ := books.linked.refunds.stored refund listed
    rwa [Option.some.inj (found.symm.trans here)]
  obtain ⟨purchase, bought, purchaseType⟩ := books.linked.payments.stored payment there
  -- the postings
  obtain ⟨ledger, references, rfl, moves, grown, ours⟩ : ∃ ledger references,
      m₂ = c.onLedger (fun _ => ledger) ∧
      LedgerMoves c.wallets wallet.id 0 (-refund.walletDebitAmount) references c.ledger ledger ∧
      (c.ledger.entriesOn wallet.reservedAccountId).length <
        (ledger.entriesOn wallet.reservedAccountId).length ∧
      ∀ reference ∈ references, reference = postingReference .refund refund.reference ∨
        reference = postingReference .refundSource refund.reference := by
    have leg : LedgerMoves c.wallets wallet.id 0 (-refund.walletDebitAmount) [input.reference] c.ledger
        m₁.ledger := by
      rw [posts.result]
      exact .posted posts.postable fun known => Gains.exchanged known member .reserved
        (.of_eq entries) rfl others
    have grown : (c.ledger.entriesOn wallet.reservedAccountId).length <
        (m₁.ledger.entriesOn wallet.reservedAccountId).length := by
      rw [posts.result]
      exact LedgerMoves.entriesOn_posted (entries ▸ List.mem_cons_self)
    rcases charged with rfl | ⟨id', input', amount', reference', others', posts'⟩
    · refine ⟨m₂.ledger, _, by rw [posts.result]; rfl, leg, grown, ?_⟩
      simp [reference]
    · have second : LedgerMoves c.wallets wallet.id 0 0 [input'.reference] m₁.ledger m₂.ledger := by
        rw [posts'.result]
        exact .posted posts'.postable fun known => Gains.elsewhere known fun entry member =>
          .inr ((others' entry member).progress (.posted posts))
      refine ⟨m₂.ledger, _, by rw [posts'.result, posts.result]; rfl, by simpa using leg.trans second,
        grown.trans_le (second.entries _), ?_⟩
      simp [reference, reference']
  -- the statuses
  have linked₂ : (c.onLedger fun _ => ledger).Linked := books.linked.onLedger _
  have linked₃ := linked₂.transitioned moved found ⟨fun _ => by simp, fun other => by simp [type] at other⟩
  have sums := Db.RefundMoves.transitioned linked₂ listed moved
  have apart : refund.transactionId ≠ payment.transactionId :=
    books.linked.refunds.apart books.linked.payments (by decide) refund listed payment there
  have bought₃ : m₃.transactions.find? payment.transactionId = some purchase := by
    rw [Db.find?_transitioned moved, if_neg apart]
    exact bought
  have held : c.statusOf refund.transactionId = some .processing := by
    rw [Db.statusOf_of_find? found, status]
  have completed : m₃.statusOf refund.transactionId = some .successful := by
    rw [Db.statusOf_transitioned moved, if_pos rfl]
    exact congrArg (Option.map _) held
  have others₃ : ∀ id, refund.transactionId ≠ id → m₃.statusOf id = c.statusOf id := by
    intro id other
    rw [Db.statusOf_transitioned moved, if_neg other]
    rfl
  have progress₃ : c.Progress m₃ := (Db.Progress.moved moves).trans (.transitioned moved)
  obtain ⟨transactions, result, progress₄, sums₄, linked₄, statuses, ended⟩ : ∃ transactions,
      m₄ = m₃.onTransactions (fun _ => transactions) ∧ m₃.Progress m₄ ∧ m₃.SameSums m₄ ∧ m₄.Linked ∧
      (∀ id, id ≠ payment.transactionId → m₄.statusOf id = m₃.statusOf id) ∧
      (total = payment.amount → m₄.statusOf payment.transactionId = some .reversed) := by
    rcases full with ⟨-, again⟩ | ⟨less, rfl⟩
    · refine ⟨_, again.2, .transitioned again, .transitioned linked₃ again bought₃ ?_ ?_,
        linked₃.transitioned again bought₃ ?_, fun id other => ?_, fun _ => ?_⟩
      · simp [purchaseType]
      · simp [purchaseType]
      · exact ⟨fun refund => by simp [purchaseType] at refund,
          fun payout => by simp [purchaseType] at payout⟩
      · rw [Db.statusOf_transitioned again, if_neg other.symm]
      · rw [Db.statusOf_transitioned again, if_pos rfl, Db.statusOf_of_find? bought₃]
        rfl
    · exact ⟨_, rfl, .refl _, .refl _, linked₃, fun _ _ => rfl, fun same => (less same).elim⟩
  have now : m₄.statusOf refund.transactionId = some .successful :=
    (statuses _ apart).trans completed
  have others₄ : ∀ other ∈ c.refunds, other.id ≠ refund.id →
      m₄.statusOf other.transactionId = c.statusOf other.transactionId := by
    intro other here different
    refine (statuses _ ?_).trans (others₃ _ fun same => ?_)
    · exact books.linked.refunds.apart books.linked.payments (by decide) other here payment there
    · exact different (congrArg _ (books.linked.refunds.own refund listed other here same)).symm
  have heldOf : ∀ id, m₄.heldOf id = c.heldOf id + if wallet.id = id then -refund.walletDebitAmount
      else 0 := by
    intro id
    rw [sums₄.held, walletId]
    exact sums.ended held completed (by simp) id
  have totals : ∀ id, RefundsService.totalOf [.successful] id m₄ =
      RefundsService.totalOf [.successful] id c + if refund.paymentId = id then refund.amount else 0 := by
    intro id
    refine (sums₄.totals _ id).trans ((sums.successful held completed id).trans ?_)
    simp
    rfl
  have reached : RefundsService.totalOf [.successful] payment.id m₄ = total :=
    (sums₄.totals _ _).trans sum
  have progress := ((progress₃.trans progress₄).trans (.told event _)).trans (.cleared _)
  obtain rfl := moved.2
  subst result
  refine ⟨{ progress with successes := fun other here successful => ?_, released := fun id used => ?_ },
    books.commit progress (linked₄.congr rfl rfl rfl rfl rfl) moves rfl ⟨rfl, rfl⟩ (fun id => ?_) heldOf
      ?_ ?_ ?_ ?_ fun quote there reference _ => .inl there⟩
  · by_cases same : other.id = refund.id
    · obtain rfl := Table.eq_of_key here listed same
      refine .inr ⟨wallet, member, walletId, fun unchanged => ?_⟩
      exact absurd (congrArg List.length unchanged) grown.ne
    · refine .inl ⟨?_, (others₄ other here same).symm.trans successful⟩
      exact Option.isSome_iff_exists.mpr ⟨other, Table.find?_of_mem here⟩
  · refine .inl ((Db.settled_of_moves moves rfl used).resolve_right fun mine => ?_)
    rcases ours _ mine with same | same
    · cases (postingReference_inj (colonless_uuidText id) plain same).1
    · cases (postingReference_inj (colonless_uuidText id) plain same).1
  · simp
    rfl
  · intro used mine
    rcases ours used mine with same | same
    · exact ⟨.refund, refund.reference, plain, same, refund, listed, rfl, now⟩
    · exact ⟨.refundSource, refund.reference, plain, same, refund, listed, rfl, now⟩
  · exact fun payment here _ => Table.find?_of_mem here
  · intro other here all
    by_cases same : other.id = payment.id
    · obtain rfl := Table.eq_of_key here there same
      exact ended (reached.symm.trans all)
    · refine progress.statusOf_terminal (books.reversed other here ?_) rfl
      have unchanged := totals other.id
      rw [if_neg fun own => same (own.symm.trans paymentId.symm), add_zero] at unchanged
      exact unchanged.symm.trans all
  · exact books.uncredited.commit progress fun row here => ⟨row, here, .refl row, .inl rfl⟩

/-! ## The failure -/

/-- A refund fails: what it held goes back to where it came from, unless the settlement hold of the
payment has ended. -/
inductive RefundFailed (c : Db) : Db → Prop
  | intro {refund : Refund} {row : Transaction} {payment : Payment} {wallet : Wallet}
      {input : PostingInput} {id : Uuid} {toPending amount : Int} {patch : Requests.TransitionPatch}
      {event : OutboxEvent} {m₁ m₂ m₃ : Db}
      (listed : refund ∈ c.refunds)
      (found : c.transactions.find? refund.transactionId = some row) (status : row.status = .processing)
      (of : c.payments.find? refund.paymentId = some payment)
      (returned : toPending = refund.pendingHoldAmount ∧ ¬ c.Settled payment.id ∧
          c.Has [.successful, .reversed] payment.transactionId ∧
          HeldAmountSet payment (payment.pendingAmount + toPending) c m₁ ∨
        toPending = 0 ∧ m₁ = c)
      (member : wallet ∈ c.wallets) (walletId : wallet.id = refund.walletId)
      (reference : input.reference = postingReference .refundRelease refund.reference)
      (entries : input.entries =
        WalletsService.splitEntries wallet refund.walletDebitAmount toPending .credit)
      (posts : Posts id input amount m₁ m₂)
      (moved : Transitioned refund.transactionId .failed patch m₂ m₃) :
      RefundFailed c (m₃.addEvent event).cleared

theorem RefundFailed.books (books : c.Books) (failed : RefundFailed c b) :
    c.Continues b ∧ b.Books := by
  obtain @⟨refund, row, payment, wallet, input, id, toPending, amount, patch, event, m₁, m₂, m₃, listed,
    found, status, of, returned, member, walletId, reference, entries, posts, moved⟩ := failed
  obtain ⟨there, paymentId⟩ := Table.find?_some of
  have plain := books.linked.refundNames.plain refund listed
  obtain ⟨-, debit, holdNonneg, holdLess, payment', there', same', itsWallet⟩ :=
    books.linked.refunding refund listed
  obtain rfl := Table.eq_of_key there' there (same'.trans paymentId.symm)
  have type : row.type = .refund := by
    obtain ⟨its, here, type⟩ := books.linked.refunds.stored refund listed
    rwa [Option.some.inj (found.symm.trans here)]
  have nonneg : 0 ≤ toPending ∧ toPending ≤ refund.walletDebitAmount := by
    rcases returned with ⟨rfl, -⟩ | ⟨rfl, -⟩ <;> omega
  -- the payment may have changed
  obtain ⟨payments, rfl, held, touched⟩ : ∃ payments, m₁ = c.onPayments (fun _ => payments) ∧
      HoldMoves payment' toPending c.payments payments ∧
      (¬ c.Settled payment'.id ∧ c.Has [.successful, .reversed] payment'.transactionId ∨
        payments = c.payments) := by
    rcases returned with ⟨-, holding, credited, changed⟩ | ⟨rfl, rfl⟩
    · obtain ⟨result, moves⟩ := HoldMoves.changed (Table.find?_of_mem there) changed (fun _ => rfl)
        fun _ => ⟨rfl, rfl, rfl, rfl, rfl⟩
      refine ⟨_, result, ?_, .inl ⟨holding, credited⟩⟩
      convert moves using 1
      ring
    · exact ⟨_, rfl, .refl payment' _, .inr rfl⟩
  obtain rfl := posts.result
  have linked₂ := (held.linked c rfl books.linked).posted posts
  have sums := Db.RefundMoves.transitioned linked₂ listed moved
  have before : c.statusOf refund.transactionId = some .processing := by
    rw [Db.statusOf_of_find? found, status]
  have now : m₃.statusOf refund.transactionId = some .failed := by
    rw [Db.statusOf_transitioned moved, if_pos rfl]
    exact congrArg (Option.map _) before
  have linked₃ := linked₂.transitioned moved found ⟨fun _ => by simp, fun other => by simp [type] at other⟩
  have heldOf : ∀ id, m₃.heldOf id = c.heldOf id + if wallet.id = id then -refund.walletDebitAmount
      else 0 := by
    intro id
    rw [walletId]
    exact sums.ended before now (by simp) id
  have totals : ∀ id, RefundsService.totalOf [.successful] id m₃ =
      RefundsService.totalOf [.successful] id c := by
    intro id
    refine (sums.successful before now id).trans ?_
    simp
    rfl
  have ledger := LedgerMoves.posted posts.postable fun known =>
    Gains.split known member nonneg.1 nonneg.2 entries
  have progress := ((((Db.Progress.held (m := c) held.kept).trans (.posted posts)).trans
    (.transitioned moved)).trans (.told event _)).trans (.cleared _)
  have statuses : ∀ id, m₃.statusOf id = some .successful → c.statusOf id = some .successful := by
    intro id successful
    rw [Db.statusOf_transitioned moved] at successful
    split_ifs at successful with own
    · obtain ⟨_, -, other⟩ := Option.map_eq_some_iff.mp successful
      cases other
    · exact successful
  obtain rfl := moved.2
  refine ⟨{ progress with
      successes := Db.successes_of fun other here successful => ⟨here, statuses _ successful⟩
      released := fun id used => .inl ((Db.settled_of_moves ledger rfl used).resolve_right ?_) },
    books.commit progress (linked₃.congr rfl rfl rfl rfl rfl) ledger rfl ⟨rfl, rfl⟩ (fun id => ?_) heldOf
      ?_ ?_ ?_ ?_ fun quote there reference _ => .inl there⟩
  · rw [List.mem_singleton, reference]
    exact fun same => by cases (postingReference_inj (colonless_uuidText id) plain same).1
  · refine (held.pending id).trans ?_
    rw [itsWallet, walletId]
    rfl
  · intro used mine
    obtain rfl := List.mem_singleton.mp mine
    exact ⟨.refundRelease, refund.reference, plain, reference, refund, listed, rfl, now⟩
  · exact held.settled (touched.imp_left And.left)
  · exact held.reversed books.reversed progress rfl totals
  · exact held.uncredited books.uncredited there progress rfl
      (touched.imp_left fun both => progress.credited both.2)

end Finstack
