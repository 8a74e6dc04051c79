import Finstack.Soundness.Books.Methods

/-! # Calls that settle refunds

The methods of `RefundsService`, from what they have read to what they commit.
-/

namespace Finstack

open Foundation Discipline LedgerService

namespace Services

variable {mode : Mode} {T : Db → Db → Prop} {F : Knowing} {held : List RowLock} {c : Db}

namespace RefundsService

/-! ## The request -/

theorem keeping_view (refundId : Uuid) :
    Keeping .outside T F (view refundId) (fun _ => T) fun answer => F.and (filedRefund answer.refund) := by
  refine keeping_queryCommitted.bind fun _ => keeping_orThrow.bind fun found =>
    (TransactionsService.keeping_getById _).bind fun transaction =>
    (keeping_each fun _ _ refund _ _ again => ?_).bind fun _ => keeping_orFail_each.bind fun refund =>
    keeping_pure fun _ _ _ known => known
  exact ⟨refund, Table.find?_of_mem (Table.find?_some again).1, .refl refund⟩

theorem keeping_reversal (payment : Payment) (refundedBefore amount : Int) :
    Keeping .inside T F (reversal payment refundedBefore amount) (fun _ => T) fun _ => F := by
  unfold reversal
  cases payment.fxQuoteId with
  | none => exact keeping_stay
  | some quoteId => exact (keeping_query.bind fun _ => keeping_orThrow).bind fun _ => keeping_ret

theorem keeping_placeHold (generated : Generated) (adminId : Uuid) (payment : Payment) (wallet : Wallet)
    (amount : Int) (share : ConversionReversal) (reason idempotencyKey : String) :
    Keeping .inside Eq ((PaymentsService.thePayment payment.id payment).and
        (WalletsService.theWallet payment.walletId wallet))
      (placeHold generated adminId payment wallet amount share reason idempotencyKey)
      (fun _ => KeepsBooks) fun _ => Fact.nothing := by
  have plain : Colonless (generateReference generated.refund) := colonless_random (by decide) _ _
  unfold placeHold
  generalize generateReference generated.refund = reference at plain ⊢
  refine (TransactionsService.keeping_create _ _ _).bind fun row =>
    (WalletsService.keeping_reserveSplitWithin _ _ _ ?_).bind fun _ =>
    keeping_if_then (fun _ => PaymentsService.keeping_update _ (fun _ => rfl) fun _ => rfl)
      (keeping_query.bind fun now => (keeping_save (writes_insertRefund _) (guarded_checkNewRefund _)).bind
        fun _ => keeping_commit keeping_stay ?_)
  · rintro held c m books known ⟨_, rfl, created⟩ uses
    rw [created.2] at uses
    exact uses
  rintro - held c b books ⟨m₃, taken, filed⟩ ⟨⟨⟨⟨-, found⟩, -⟩, mine⟩, clock, is⟩
  have name : Colonless row.reference := by
    rw [is]
    exact TransactionsService.newTransaction_plain _ _ _ _
  have kind : row.type = .refund ∧ row.status = .processing := by
    rw [is]
    exact ⟨rfl, rfl⟩
  have text : (holdMovement reference share.walletDebit).reference =
      postingReference .refundHold reference := Purpose.text_eq .refundHold reference
  rw [text] at taken
  generalize same : newRefund _ _ _ _ _ _ _ _ _ _ _ = refund at filed
  have its : refund.reference = reference ∧ refund.paymentId = payment.id ∧
      refund.walletId = wallet.id ∧ refund.transactionId = row.id ∧
      refund.walletDebitAmount = share.walletDebit ∧
      refund.pendingHoldAmount = fromPending payment share.walletDebit := by
    rw [← same]
    exact ⟨rfl, rfl, rfl, rfl, rfl, rfl⟩
  obtain ⟨rfl, paymentId, walletId, transactionId, debit, pending⟩ := its
  rw [← pending] at taken
  obtain ⟨m₂, held, taken⟩ : ∃ m₂, (WalletsService.Did (fun c b => ∃ m, c = m ∧ Created row m b) wallet.id
        (fun _ stored => WalletsService.Split stored share.walletDebit refund.pendingHoldAmount .debit
          (postingReference .refundHold refund.reference)) c m₂ ∨
        (∃ m, c = m ∧ Created row m m₂) ∧ c.Uses (postingReference .refundHold refund.reference)) ∧
      (0 < refund.pendingHoldAmount ∧
          HeldAmountSet payment (payment.pendingAmount - refund.pendingHoldAmount) m₂ m₃ ∨
        ¬ 0 < refund.pendingHoldAmount ∧ m₃ = m₂) := by
    rcases taken with ⟨some, m₂, held, changed⟩ | ⟨none, held⟩
    · exact ⟨m₂, held, .inl ⟨some, changed⟩⟩
    · exact ⟨m₃, held, .inr ⟨none, rfl⟩⟩
  rcases held with ⟨m₁, ⟨_, rfl, created⟩, stored, member, own, held⟩ | ⟨⟨_, rfl, created⟩, uses⟩
  · obtain ⟨input, id, total, reference, entries, posts⟩ := held
    have paid : wallet.id = payment.walletId := mine.2
    rw [← debit] at entries
    exact RefundRequested.books books (.intro found member (own.trans paid) kind.1 kind.2 name plain
      ⟨paymentId, walletId.trans own.symm, transactionId, pending.trans (by rw [debit])⟩ reference entries
      created posts taken filed)
  · obtain ⟨other, there, named⟩ := books.journal.done plain uses
    obtain ⟨-, -, -, free⟩ := Db.checkNewRefund_ok filed.1
    have refunds : m₃.refunds = c.refunds := by
      rcases taken with ⟨-, changed⟩ | ⟨-, rfl⟩
      · rw [changed.2, created.2]
        rfl
      · rw [created.2]
        rfl
    have absent := List.find?_eq_none.mp free other (refunds ▸ there)
    simp [named] at absent

theorem keeping_createWithHold (generated : Generated) (adminId paymentId : Uuid) (input : RefundInput)
    (idempotencyKey : String) :
    Keeping .inside Eq F (createWithHold generated adminId paymentId input idempotencyKey)
      (fun _ => KeepsBooks) fun _ => Fact.nothing := by
  refine (PaymentsService.keeping_lockWithin _).bind fun payment =>
    (keeping_query.bind fun _ => keeping_orThrow).bind fun purchase => ?_
  split_ifs
  · exact keeping_throw
  · exact keeping_throw
  refine keeping_query.bind fun refundedBefore => ?_
  dsimp only
  split_ifs
  · exact keeping_throw
  refine (WalletsService.keeping_getWallet _).bind fun wallet =>
    (keeping_reversal _ _ _).bind fun share => ?_
  refine Leads.mono ?_ (fun _ _ _ _ known => known) (keeping_placeHold _ _ _ _ _ _ _ _)
  exact fun _ _ _ known => ⟨⟨known.1.2.1, rfl⟩, known.2⟩

theorem keeping_recover (adminId : Uuid) (idempotencyKey : String) (error : Err) :
    Keeping .outside T F (recover adminId idempotencyKey error) (fun _ => T) fun _ => F := by
  unfold recover
  split_ifs
  · refine keeping_queryCommitted.bind fun winner => ?_
    cases winner with
    | none => exact keeping_throw
    | some winner => exact keeping_less (keeping_view _) fun _ _ _ known => known.1
  · exact keeping_throw

theorem keeping_request (generated : Generated) (adminId paymentId : Uuid) (input : RefundInput)
    (idempotencyKey : String) :
    Keeping .outside T Fact.nothing (request generated adminId paymentId input idempotencyKey)
      (fun _ => T) fun _ => Fact.nothing := by
  refine keeping_queryCommitted.bind fun existing => ?_
  cases existing with
  | some existing => exact keeping_less (keeping_view _) fun _ _ _ _ => trivial
  | none =>
    refine (leads_tryCatch ((keeping_inTransaction (keeping_createWithHold _ _ _ _ _)).bind fun _ =>
      keeping_stay) fun error => (keeping_recover _ _ error).bind fun _ => keeping_stay).bind
        fun outcome => ?_
    cases outcome with
    | inl refund => exact keeping_less (keeping_view _) fun _ _ _ _ => trivial
    | inr winner => exact keeping_stay

/-! ## The end -/

/-- A refund and its transaction's row, which nobody else changes. -/
def theSettled (refund : Refund) (row : Transaction) : Knowing :=
  (filedRefund refund).and (TransactionsService.theTransaction refund.transactionId row)

theorem theSettled_row {refund : Refund} {row : Transaction}
    (mine : (theSettled refund row).holds held c) :
    ∃ stored ∈ c.refunds, refund.Continues stored ∧
      c.transactions.find? refund.transactionId = some row ∧ row.id = refund.transactionId := by
  obtain ⟨⟨stored, found, same⟩, ⟨⟨-, there⟩, own⟩⟩ := mine
  exact ⟨stored, (Table.find?_some found).1, same, own ▸ there, own⟩

/-- What a refund's row has in common with the refund that was read. -/
theorem continues_eq {refund stored : Refund} (same : refund.Continues stored) :
    stored.transactionId = refund.transactionId ∧ stored.reference = refund.reference ∧
      stored.walletId = refund.walletId ∧ stored.paymentId = refund.paymentId ∧
      stored.walletDebitAmount = refund.walletDebitAmount ∧
      stored.pendingHoldAmount = refund.pendingHoldAmount := by
  rw [Refund.Continues] at same
  rw [same]
  exact ⟨rfl, rfl, rfl, rfl, rfl, rfl⟩

/-- Nothing has been posted yet for the end of a refund that is still processing. -/
theorem end_unused (books : c.Books) {refund : Refund} {row : Transaction}
    (mine : (theSettled refund row).holds held c) (status : row.status = .processing) (purpose : Purpose)
    (ends : purpose ∈ [Purpose.refund, .refundSource, .refundRelease]) :
    ¬ c.Uses (purpose.text refund.reference) := by
  obtain ⟨stored, listed, same, found, -⟩ := theSettled_row mine
  obtain ⟨transactionId, reference, -⟩ := continues_eq same
  rw [Purpose.text_eq, ← reference]
  refine books.refund_unused listed ?_ ends
  rw [transactionId, Db.statusOf_of_find? found, status]

theorem theSettled_plain (books : c.Books) {refund : Refund} {row : Transaction}
    (mine : (theSettled refund row).holds held c) : Colonless refund.reference := by
  obtain ⟨stored, listed, same, -, -⟩ := theSettled_row mine
  exact (continues_eq same).2.1 ▸ books.linked.refundNames.plain stored listed

/-- The platform's accounts. -/
def thePlatforms (clearing : Uuid) (fx : Option FxAccounts) : Knowing :=
  (platform clearing).and (Fact.each fx fun accounts => ((platform accounts.walletPosition).and
    (platform accounts.walletRevenue)).and ((platform accounts.chargedPosition).and
      (platform accounts.chargedClearing)))

theorem keeping_fxAccounts (fresh : Fresh) (refund : Refund) (clearing : Uuid) :
    Keeping mode T (F.and (platform clearing)) (fxAccounts fresh refund) (fun _ => T)
      fun fx => F.and (thePlatforms clearing fx) := by
  unfold fxAccounts
  split_ifs
  · exact keeping_pure fun _ _ _ known => ⟨known.1, known.2, trivial⟩
  refine (keeping_ensureSystemAccount _ _).bind fun _ => (keeping_ensureSystemAccount _ _).bind fun _ =>
    (keeping_ensureSystemAccount _ _).bind fun _ => (keeping_ensureSystemAccount _ _).bind fun _ =>
    keeping_pure fun _ _ _ known => ?_
  exact ⟨known.1.1.1.1.1, known.1.1.1.1.2, ⟨known.1.1.1.2, known.1.1.2⟩, known.1.2, known.2⟩

theorem keeping_postCharged (id : Uuid) (refund : Refund) (fx : Option FxAccounts)
    (unused : ∀ held c m, c.Books → F.holds held c → T c m →
      ¬ m.Uses (Purpose.refundSource.text refund.reference)) :
    Keeping .inside T F (postCharged id refund fx)
      (fun _ c b => ∃ m, T c m ∧ (b = m ∨ ∃ (accounts : FxAccounts) (total : Int), fx = some accounts ∧
        Posts id (chargedLeg refund accounts) total m b)) fun _ => F := by
  cases fx with
  | none => exact keeping_conclude (R := fun _ => F) keeping_stay fun _ _ _ b _ before _ => ⟨b, before, .inl rfl⟩
  | some accounts =>
    refine keeping_less (keeping_conclude ((keeping_postWithin id unused).bind fun _ => keeping_stay) ?_)
      fun _ _ _ known => known.1
    rintro - - c b - ⟨m, total, before, posts⟩ -
    exact ⟨m, before, .inr ⟨accounts, total, rfl, posts⟩⟩

/-- What the successful refunds of a payment add up to decides whether it is reversed: the total is still
so when the transaction commits, as its wallet's reserved balance is locked. -/
theorem keeping_markPaymentReversed (paymentId accountId : Uuid) (amount : Int)
    (added : ∀ held c b, c.Books → F.holds held c → T c b → b.payments = c.payments ∧
      totalOf [.successful] paymentId b = totalOf [.successful] paymentId c + amount)
    (mine : ∀ held c, c.Books → F.holds held c → RowLock.account accountId ∈ held ∧
      ∃ payment ∈ c.payments, payment.id = paymentId ∧ ∃ wallet ∈ c.wallets,
        wallet.id = payment.walletId ∧ wallet.reservedAccountId = accountId) :
    Keeping .inside T F (markPaymentReversedIfFullyRefunded paymentId)
      (fun _ c b => ∃ m, T c m ∧ ∃ payment ∈ c.payments, payment.id = paymentId ∧
        (totalOf [.successful] paymentId m = payment.amount ∧
            Transitioned payment.transactionId .reversed {} m b ∨
          totalOf [.successful] paymentId m ≠ payment.amount ∧ b = m))
      fun _ => F := by
  have reads : Keeping .inside T F (PaymentsService.getById .transaction paymentId) (fun _ => T)
      fun payment => F.and ((filedPayment payment).and (Fact.given (payment.id = paymentId))) := by
    refine (leads_query (R := fun found => F.and (Fact.each found fun payment =>
      (filedPayment payment).and (Fact.given (payment.id = paymentId)))) ?_).bind
        fun found => keeping_orThrow_each
    intro held c b books before known
    refine ⟨known, ?_⟩
    rw [(added held c b books known before).1]
    cases found : c.payments.find? paymentId with
    | none => trivial
    | some payment =>
      obtain ⟨-, rfl⟩ := Table.find?_some found
      exact ⟨⟨payment, found, .refl payment⟩, rfl⟩
  refine reads.bind fun payment => ?_
  refine (leads_query (R := fun total => (F.and ((filedPayment payment).and
    (Fact.given (payment.id = paymentId)))).and (refundedBy paymentId accountId (total - amount))) ?_).bind
      fun total => ?_
  · intro held c b books before known
    obtain ⟨locks, itsWallet⟩ := mine held c books known.1
    refine ⟨known, locks, itsWallet, ?_⟩
    rw [(added held c b books known.1 before).2]
    ring
  -- the payment and the total as they are when the transaction commits
  have still : ∀ held c m, c.Books → T c m → ((F.and ((filedPayment payment).and
      (Fact.given (payment.id = paymentId)))).and
        (refundedBy paymentId accountId (total - amount))).holds held c →
      totalOf [.successful] paymentId m = total ∧ ∃ row ∈ c.payments, row.id = paymentId ∧
        row.transactionId = payment.transactionId ∧ row.amount = payment.amount := by
    rintro held c m books before ⟨⟨known, ⟨row, found, transactionId, -, -, same, -⟩, own⟩, -, -, before'⟩
    obtain ⟨member, its⟩ := Table.find?_some found
    refine ⟨?_, row, member, its.trans own, transactionId, same⟩
    rw [(added held c m books known before).2, before']
    ring
  split_ifs with full
  · refine keeping_less (keeping_conclude ((TransactionsService.keeping_transition _ _ _).bind fun _ =>
      keeping_stay) ?_) fun _ _ _ known => known.1.1
    rintro - held c b books ⟨m, before, moved⟩ known
    obtain ⟨reached, row, member, own, transactionId, same⟩ := still held c m books before known
    rw [← transactionId] at moved
    exact ⟨m, before, row, member, own, .inl ⟨(reached.trans full).trans same.symm, moved⟩⟩
  · refine keeping_less (keeping_conclude keeping_stay ?_) fun _ _ _ known => known.1.1
    rintro - held c b books before known
    obtain ⟨reached, row, member, own, -, same⟩ := still held c b books before known
    refine ⟨b, before, row, member, own, .inr ⟨fun all => full ?_, rfl⟩⟩
    exact (reached.symm.trans all).trans same

/-- What the success of a refund adds to what has been refunded of its payment. -/
theorem totalOf_completed {refund : Refund} {row : Transaction} {ledger : Ledger} {b : Db}
    {patch : Requests.TransitionPatch} (books : c.Books) (mine : (theSettled refund row).holds held c)
    (status : row.status = .processing)
    (moved : Transitioned row.id .successful patch (c.onLedger fun _ => ledger) b) :
    b.payments = c.payments ∧ totalOf [.successful] refund.paymentId b =
      totalOf [.successful] refund.paymentId c + refund.amount := by
  obtain ⟨stored, listed, same, found, own⟩ := theSettled_row mine
  obtain ⟨transactionId, -, -, paymentId, -, -⟩ := continues_eq same
  have amount : stored.amount = refund.amount := by
    rw [Refund.Continues] at same
    rw [same]
  rw [own, ← transactionId] at moved
  rw [← transactionId] at found
  have linked : (c.onLedger fun _ => ledger).Linked := books.linked.onLedger _
  have before : (c.onLedger fun _ => ledger).statusOf stored.transactionId = some .processing := by
    refine Eq.trans ?_ (congrArg some status)
    exact Db.statusOf_of_find? found
  have after : b.statusOf stored.transactionId = some .successful := by
    rw [Db.statusOf_transitioned moved, if_pos rfl, before]
    rfl
  have sums := (Db.RefundMoves.transitioned linked listed moved).successful before after refund.paymentId
  refine ⟨by rw [moved.2]; rfl, sums.trans ?_⟩
  rw [if_pos ⟨paymentId, rfl⟩, amount]
  rfl

/-- What leaves the wallet leaves it for the platform. -/
theorem walletLeg_entries (refund : Refund) (wallet : Wallet) {clearing : Uuid} {fx : Option FxAccounts}
    (platforms : (thePlatforms clearing fx).holds held c) : ∃ rest,
      (walletLeg refund wallet clearing fx).entries =
        ⟨wallet.reservedAccountId, .debit, refund.walletDebitAmount⟩ :: rest ∧
      ∀ entry ∈ rest, c.Coded entry.accountId := by
  refine ⟨_, rfl, ?_⟩
  cases fx with
  | none =>
    intro entry member
    obtain rfl := List.mem_singleton.mp member
    exact platforms.1
  | some accounts =>
    obtain ⟨-, ⟨position, revenue⟩, -⟩ := platforms
    intro entry member
    rcases List.mem_append.mp member with revenues | positions
    · split_ifs at revenues
      · obtain rfl := List.mem_singleton.mp revenues
        exact revenue
      · cases revenues
    · obtain rfl := List.mem_singleton.mp positions
      exact position

/-- The provider has refunded it. -/
theorem keeping_completeOpen (fresh : Fresh) (refund : Refund) (clearing : Uuid) (fx : Option FxAccounts)
    (row : Transaction) (status : row.status = .processing) :
    Keeping .inside Eq ((thePlatforms clearing fx).and (theSettled refund row))
      (completeOpen fresh refund clearing fx row) (fun _ => KeepsBooks) fun _ => Fact.nothing := by
  refine (WalletsService.keeping_getWallet _).bind fun wallet =>
    (keeping_postWithin _ ?_).bind fun posted => (keeping_postCharged _ _ _ ?_).bind fun _ =>
    keeping_query.bind fun now => (TransactionsService.keeping_transition _ _ _).bind fun _ =>
    (keeping_markPaymentReversed _ wallet.reservedAccountId refund.amount ?_ ?_).bind fun _ =>
    keeping_commit (OutboxService.keeping_add _) ?_
  · rintro held c m books known rfl
    exact end_unused books known.1.2 status .refund (by simp)
  · rintro held c m books known ⟨_, total, rfl, posts⟩ uses
    rcases (Db.uses_posted posts).mp uses with before | same
    · exact end_unused books known.1.1.2 status .refundSource (by simp) before
    · exact Purpose.text_ne .refund .refundSource (theSettled_plain books known.1.1.2) (by simp) same
  · rintro held c b books known ⟨m, ⟨m₁, ⟨_, total, rfl, posts⟩, charged⟩, moved⟩
    obtain ⟨ledger, rfl⟩ : ∃ ledger, m = c.onLedger fun _ => ledger := by
      rcases charged with rfl | ⟨accounts, total', -, posts'⟩
      · exact ⟨_, posts.result⟩
      · exact ⟨_, by rw [posts'.result, posts.result]; rfl⟩
    exact totalOf_completed books known.1.1.2 status moved
  · rintro held c books ⟨⟨⟨-, settled⟩, mine⟩, locks⟩
    obtain ⟨stored, listed, same, -⟩ := theSettled_row settled
    obtain ⟨-, -, walletId, paymentId, -, -⟩ := continues_eq same
    obtain ⟨-, -, -, -, payment, there, its, paid⟩ := books.linked.refunding stored listed
    obtain ⟨row', member, own, -, accounts⟩ := WalletsService.theWallet_row mine
    refine ⟨locks _ ?_, payment, there, its.trans paymentId, row', member, ?_, accounts .reserved⟩
    · exact List.mem_map.mpr ⟨wallet.reservedAccountId, List.mem_cons_self, rfl⟩
    · rw [own, paid, walletId]
  rintro - held c b books ⟨m₄, ⟨m₃, ⟨m₂, ⟨m₁, ⟨_, total, rfl, posts⟩, charged⟩, moved⟩, payment, there, its,
    full⟩, rfl⟩ ⟨⟨⟨platforms, settled⟩, mine⟩, -⟩
  obtain ⟨stored, listed, same, found, own⟩ := theSettled_row settled
  obtain ⟨transactionId, reference, walletId, paymentId, debit, -⟩ := continues_eq same
  obtain ⟨row', member, id, -, accounts⟩ := WalletsService.theWallet_row mine
  have account : row'.reservedAccountId = wallet.reservedAccountId := accounts .reserved
  rw [own, ← transactionId] at moved
  rw [← transactionId] at found
  have of : c.payments.find? stored.paymentId = some payment := by
    rw [paymentId, ← its]
    exact Table.find?_of_mem there
  obtain ⟨rest, entries, others⟩ := walletLeg_entries refund wallet platforms
  rw [← account, ← debit] at entries
  have leg : (walletLeg refund wallet clearing fx).reference = postingReference .refund stored.reference := by
    rw [reference]
    exact Purpose.text_eq .refund _
  rw [← its] at full
  refine RefundCompleted.books books (.intro listed found status of member (id.trans walletId.symm) leg entries
    others posts ?_ moved rfl full)
  rcases charged with rfl | ⟨charges, total', rfl, posts'⟩
  · exact .inl rfl
  refine .inr ⟨_, _, total', ?_, fun entry charge => ?_, posts'⟩
  · rw [reference]
    exact Purpose.text_eq .refundSource _
  · rcases List.mem_pair.mp charge with rfl | rfl
    · exact platforms.2.2.1
    · exact platforms.2.2.2

theorem keeping_findRefund (refundId : Uuid) :
    Keeping mode T F (findRefund refundId) (fun _ => T) fun refund => F.and (filedRefund refund) := by
  refine (keeping_each fun _ _ refund _ _ found => ?_).bind fun _ => keeping_orFail_each
  exact ⟨refund, Table.find?_of_mem (Table.find?_some found).1, .refl refund⟩

theorem keeping_complete (fresh : Fresh) (refundId : Uuid) :
    Keeping .outside T Fact.nothing (complete fresh refundId) (fun _ => T) fun _ => Fact.nothing := by
  refine (keeping_findRefund _).bind fun refund => (keeping_ensureSystemAccount _ _).bind fun clearing =>
    (keeping_fxAccounts _ _ _).bind fun fx => keeping_inTransaction
      ((TransactionsService.keeping_lockWithin _).bind fun row => ?_)
  split_ifs with processing
  · exact keeping_idle
  refine Leads.mono ?_ (fun _ _ _ _ known => known)
    (keeping_completeOpen _ _ _ _ _ (not_ne_iff.mp processing))
  exact fun _ _ _ known => ⟨known.1.2, known.1.1.2, known.2⟩

/-! ### The failure -/

/-- What goes back to pending: a payment that still holds something, or will be released later, has been
credited and its hold has not ended. -/
theorem held_of_open (books : c.Books) {payment : Payment}
    (mine : c.payments.find? payment.id = some payment)
    (holding : payment.pendingAmount > 0 ∨ payment.fundsAvailableAt.any (c.clock < ·) = true) :
    ¬ c.Settled payment.id ∧ c.Has [.successful, .reversed] payment.transactionId := by
  have listed := (Table.find?_some mine).1
  constructor
  · intro settled
    obtain ⟨other, there, same, nothing, time, given, past⟩ := books.journal.done (colonless_uuidText _) settled
    obtain rfl := Table.eq_of_key there listed (uuidText_injective same)
    rcases holding with some | later
    · omega
    · simp only [given, Option.any_some, decide_eq_true_eq] at later
      omega
  · by_contra uncredited
    obtain ⟨nothing, never⟩ := books.uncredited payment listed uncredited
    rcases holding with some | later
    · omega
    · simp [never] at later

/-- How much of the hold goes back to the settlement hold it came from. -/
def Returned (refund : Refund) (toPending : Int) (c b : Db) : Prop :=
  toPending = refund.pendingHoldAmount ∧ (∃ payment, c.payments.find? refund.paymentId = some payment ∧
      ¬ c.Settled payment.id ∧ c.Has [.successful, .reversed] payment.transactionId ∧
      HeldAmountSet payment (payment.pendingAmount + toPending) c b) ∨ toPending = 0 ∧ b = c

theorem keeping_returnToPending (refund : Refund) :
    Keeping .inside Eq F (returnToPending refund) (Returned refund) fun _ => F := by
  have nothing : ∀ {F : Knowing}, Keeping .inside Eq F (pure 0) (Returned refund) fun _ => F :=
    Leads.since (fun _ _ _ same => .inr ⟨rfl, same.symm⟩) (keeping_answer fun _ _ _ known => known)
  unfold returnToPending
  split_ifs
  · exact nothing
  refine (PaymentsService.keeping_lockWithin _).bind fun payment => ?_
  refine (leads_query (R := fun now => (F.and (PaymentsService.thePayment refund.paymentId payment)).and
    (if payment.pendingAmount > 0 ∨ payment.fundsAvailableAt.any (now < ·) = true then
      (unreleased payment.id).and (credited payment.transactionId) else Fact.nothing)) ?_).bind fun now => ?_
  · rintro held c b books rfl known
    refine ⟨known, ?_⟩
    split_ifs with holding
    · obtain ⟨⟨locks, found⟩, own⟩ := known.2
      obtain ⟨holds, paid⟩ := held_of_open books found holding
      exact ⟨⟨locks, holds⟩, paid⟩
    · trivial
  split_ifs
  · refine Leads.bind (keeping_conclude (V := fun _ => Returned refund refund.pendingHoldAmount)
      (PaymentsService.keeping_update _ (fun _ => rfl) fun _ => rfl) ?_) fun _ =>
        keeping_answer fun _ _ _ known => known.1.1
    rintro - held c b books ⟨_, rfl, changed⟩ ⟨⟨-, ⟨-, found⟩, own⟩, ⟨-, holds⟩, paid⟩
    exact .inl ⟨rfl, payment, own ▸ found, holds, paid, changed⟩
  · exact keeping_less nothing fun _ _ _ known => known.1.1

theorem keeping_fail (id refundId : Uuid) (failureCode failureReason : String) :
    Keeping .outside T Fact.nothing (fail id refundId failureCode failureReason) (fun _ => T)
      fun _ => Fact.nothing := by
  refine (keeping_findRefund _).bind fun refund => keeping_inTransaction
    ((TransactionsService.keeping_lockWithin _).bind fun row => ?_)
  split_ifs with processing
  · exact keeping_idle
  have status := not_ne_iff.mp processing
  refine (keeping_returnToPending _).bind fun toPending =>
    (WalletsService.keeping_releaseSplitWithin _ _ _ ?_).bind fun _ =>
    (TransactionsService.keeping_transition _ _ _).bind fun _ =>
    keeping_commit (OutboxService.keeping_add _) ?_
  · rintro held c m books ⟨known, settled⟩ returned uses
    have before : c.Uses (Purpose.refundRelease.text refund.reference) := by
      rcases returned with ⟨-, payment, -, -, -, changed⟩ | ⟨-, rfl⟩
      · rw [changed.2] at uses
        exact uses
      · exact uses
    exact end_unused books ⟨known.2, settled⟩ status .refundRelease (by simp) before
  rintro - held c b books ⟨m₃, ⟨m₂, ⟨m₁, returned, wallet, member, id, released⟩, moved⟩, rfl⟩ ⟨known, settled⟩
  obtain ⟨input, posted, total, name, entries, posts⟩ := released
  obtain ⟨stored, listed, same, found, own⟩ := theSettled_row ⟨known.2, settled⟩
  obtain ⟨transactionId, reference, walletId, paymentId, debit, hold⟩ := continues_eq same
  rw [own, ← transactionId] at moved
  rw [← transactionId] at found
  obtain ⟨-, -, -, -, payment, there, its, -⟩ := books.linked.refunding stored listed
  have of : c.payments.find? stored.paymentId = some payment := by
    rw [← its]
    exact Table.find?_of_mem there
  have back : toPending = stored.pendingHoldAmount ∧ ¬ c.Settled payment.id ∧
      c.Has [.successful, .reversed] payment.transactionId ∧
      HeldAmountSet payment (payment.pendingAmount + toPending) c m₁ ∨ toPending = 0 ∧ m₁ = c := by
    rcases returned with ⟨all, payment', found', holds, paid, changed⟩ | nothing
    · rw [← paymentId, of] at found'
      obtain rfl := Option.some.inj found'
      exact .inl ⟨all.trans hold.symm, holds, paid, changed⟩
    · exact .inr nothing
  have leg : input.reference = postingReference .refundRelease stored.reference := by
    rw [name, reference]
    exact Purpose.text_eq .refundRelease _
  have amount : (releaseMovement refund).amount = stored.walletDebitAmount := debit.symm
  rw [amount] at entries
  exact RefundFailed.books books (.intro listed found status of back member (id.trans walletId.symm) leg entries
    posts moved)

end RefundsService

end Services

end Finstack
