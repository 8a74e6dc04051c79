import Finstack.Soundness.Books.Methods

/-! # Calls that settle payouts

The methods of `PayoutsService`, from what they have read to what they commit.
-/

namespace Finstack.Services

open Foundation Discipline

variable {mode : Mode} {T : Db → Db → Prop} {F : Knowing} {held : List RowLock} {c : Db}

namespace PayoutsService

/-- A payout and its transaction's row, which nobody else changes. -/
def theSettled (payout : Payout) (row : Transaction) : Knowing :=
  (filedPayout payout).and (TransactionsService.theTransaction payout.transactionId row)

theorem theSettled_row {payout : Payout} {row : Transaction}
    (mine : (theSettled payout row).holds held c) :
    ∃ stored ∈ c.payouts, payout.Continues stored ∧
      c.transactions.find? payout.transactionId = some row ∧ row.id = payout.transactionId := by
  obtain ⟨⟨stored, found, same⟩, ⟨⟨-, there⟩, own⟩⟩ := mine
  exact ⟨stored, (Table.find?_some found).1, same, own ▸ there, own⟩

/-- What a payout's row has in common with the payout that was read. -/
theorem continues_eq {payout stored : Payout} (same : payout.Continues stored) :
    stored.transactionId = payout.transactionId ∧ stored.reference = payout.reference ∧
      stored.walletId = payout.walletId ∧ stored.amount = payout.amount := by
  rw [Payout.Continues] at same
  rw [same]
  exact ⟨rfl, rfl, rfl, rfl⟩

/-- Nothing has been posted yet for the end of a payout that is still processing. -/
theorem end_unused (books : c.Books) {payout : Payout} {row : Transaction}
    (mine : (theSettled payout row).holds held c) (status : row.status = .processing) (purpose : Purpose)
    (ends : purpose ∈ [Purpose.payout, .payoutFee, .payoutRelease]) :
    ¬ c.Uses (purpose.text payout.reference) := by
  obtain ⟨stored, listed, same, found, -⟩ := theSettled_row mine
  obtain ⟨transactionId, reference, -, -⟩ := continues_eq same
  rw [Purpose.text_eq, ← reference]
  refine books.payout_unused listed ?_ ends
  rw [transactionId, Db.statusOf_of_find? found, status]

/-- Nor for the reversal of one that is successful. -/
theorem reversal_unused (books : c.Books) {payout : Payout} {row : Transaction}
    (mine : (theSettled payout row).holds held c) (status : row.status = .successful) (purpose : Purpose)
    (ends : purpose ∈ [Purpose.payoutReversal, .payoutFeeRefund]) :
    ¬ c.Uses (purpose.text payout.reference) := by
  obtain ⟨stored, listed, same, found, -⟩ := theSettled_row mine
  obtain ⟨transactionId, reference, -, -⟩ := continues_eq same
  rw [Purpose.text_eq, ← reference]
  refine books.reversal_unused listed ?_ ends
  rw [transactionId, Db.statusOf_of_find? found, status]

theorem theSettled_plain (books : c.Books) {payout : Payout} {row : Transaction}
    (mine : (theSettled payout row).holds held c) : Colonless payout.reference := by
  obtain ⟨stored, listed, same, -, -⟩ := theSettled_row mine
  exact (continues_eq same).2.1 ▸ books.linked.payoutNames.plain stored listed

theorem keeping_collectFee (fresh : Fresh) (payout : Payout) (row : Transaction)
    (unused : ∀ held c m, c.Books → F.holds held c → T c m →
      ¬ m.Uses (Purpose.payoutFee.text payout.reference)) :
    Keeping .inside T F (collectFee fresh payout row)
      (fun _ c b => 0 < row.feeAmount ∧ WalletsService.Did T payout.walletId (fun c wallet =>
          Drawn c wallet .reserved row.feeAmount (Purpose.payoutFee.text payout.reference)) c b ∨
        ¬ 0 < row.feeAmount ∧ T c b) fun _ => F :=
  keeping_when fun _ => WalletsService.keeping_collectFeeWithin _ _ _ unused

theorem keeping_refundFee (fresh : Fresh) (payout : Payout) (row : Transaction)
    (unused : ∀ held c m, c.Books → F.holds held c → T c m →
      ¬ m.Uses (Purpose.payoutFeeRefund.text payout.reference)) :
    Keeping .inside T F (refundFee fresh payout row)
      (fun _ c b => 0 < row.feeAmount ∧ WalletsService.Did T payout.walletId (fun c wallet =>
          Paid c wallet .available row.feeAmount (Purpose.payoutFeeRefund.text payout.reference)) c b ∨
        ¬ 0 < row.feeAmount ∧ T c b) fun _ => F :=
  keeping_when fun _ => WalletsService.keeping_refundFeeWithin _ _ unused

/-- The provider paid it out. -/
theorem keeping_complete (fresh : Fresh) (payout : Payout) :
    Keeping .outside T (filedPayout payout) (complete fresh payout) (fun _ => T)
      fun _ => Fact.nothing := by
  refine (keeping_ensureSystemAccount _ _).bind fun clearing => keeping_inTransaction
    ((TransactionsService.keeping_lockWithin _).bind fun row => ?_)
  split_ifs with processing
  · exact keeping_idle
  have status := not_ne_iff.mp processing
  refine (WalletsService.keeping_getWallet _).bind fun wallet =>
    Leads.bind (WalletsService.keeping_draw _
      ⟨payout.amount, Purpose.payout.text payout.reference, s!"Payout {payout.reference}"⟩ .reserved rfl
      (fun _ _ _ known => known.2) (fun _ _ _ known => known.1.1.2) ?_) fun posted =>
    (keeping_collectFee _ _ _ ?_).bind fun _ => keeping_query.bind fun now =>
    (TransactionsService.keeping_transition _ _ _).bind fun _ =>
    keeping_commit (OutboxService.keeping_add _) ?_
  · rintro held c m books known rfl
    exact end_unused books ⟨known.1.1.1, known.1.2⟩ status .payout (by simp)
  · rintro held c m books known ⟨_, rfl, wallet', -, -, left⟩ uses
    have mine : (theSettled payout row).holds held c := ⟨known.1.1.1, known.1.2⟩
    rcases left.uses uses with before | same
    · exact end_unused books mine status .payoutFee (by simp) before
    · exact Purpose.text_ne .payout .payoutFee (theSettled_plain books mine) (by simp) same
  rintro - held c b books ⟨m₃, ⟨m₂, charged, moved⟩, rfl⟩ known
  obtain ⟨stored, listed, same, found, own⟩ := theSettled_row ⟨known.1.1.1, known.1.2⟩
  obtain ⟨transactionId, reference, walletId, amount⟩ := continues_eq same
  obtain ⟨m, rfl, wallet, member, its, m₁, left, charged⟩ := WalletsService.Did.both charged
  simp only [Purpose.text_eq, ← reference, ← amount] at left charged
  rw [own, ← transactionId] at moved
  rw [← transactionId] at found
  exact PayoutCompleted.books books (.intro listed found status member (its.trans walletId.symm) left charged
    moved)

/-- The provider did not pay it out. -/
theorem keeping_fail (id : Uuid) (payout : Payout) (failureCode failureReason : String) :
    Keeping .outside T (filedPayout payout) (fail id payout failureCode failureReason) (fun _ => T)
      fun _ => Fact.nothing := by
  refine keeping_inTransaction ((TransactionsService.keeping_lockWithin _).bind fun row => ?_)
  split_ifs with processing
  · exact keeping_idle
  have status := not_ne_iff.mp processing
  refine Leads.bind (WalletsService.keeping_releaseWithin _ _ ?_) fun _ =>
    (TransactionsService.keeping_transition _ _ _).bind fun _ =>
    keeping_commit (OutboxService.keeping_add _) ?_
  · rintro held c m books known rfl
    exact end_unused books known status .payoutRelease (by simp)
  rintro - held c b books ⟨m₂, ⟨m₁, ⟨_, rfl, wallet, member, its, released⟩, moved⟩, rfl⟩ known
  obtain ⟨stored, listed, same, found, own⟩ := theSettled_row known
  obtain ⟨transactionId, reference, walletId, amount⟩ := continues_eq same
  have name : (releaseMovement payout row).reference = postingReference .payoutRelease stored.reference := by
    rw [reference]
    exact Purpose.text_eq .payoutRelease _
  have sum : (releaseMovement payout row).amount = stored.amount + row.feeAmount := by
    rw [amount]
    rfl
  rw [name, sum] at released
  rw [own, ← transactionId] at moved
  rw [← transactionId] at found
  exact PayoutFailed.books books (.intro listed found status member (its.trans walletId.symm) released moved)

/-- The provider returned it. -/
theorem keeping_reverse (fresh : Fresh) (payout : Payout) :
    Keeping .outside T (filedPayout payout) (reverse fresh payout) (fun _ => T)
      fun _ => Fact.nothing := by
  refine (keeping_ensureSystemAccount _ _).bind fun clearing => keeping_inTransaction
    ((TransactionsService.keeping_lockWithin _).bind fun row => ?_)
  split_ifs with successful
  · exact keeping_idle
  have status := not_ne_iff.mp successful
  refine (WalletsService.keeping_getWallet _).bind fun wallet =>
    Leads.bind (WalletsService.keeping_pay _
      ⟨payout.amount, Purpose.payoutReversal.text payout.reference,
        s!"Reversal of payout {payout.reference}"⟩ .available rfl
      (fun _ _ _ known => known.2) (fun _ _ _ known => known.1.1.2) ?_) fun _ =>
    (keeping_refundFee _ _ _ ?_).bind fun _ =>
    (TransactionsService.keeping_transition _ _ _).bind fun _ =>
    keeping_commit (OutboxService.keeping_add _) ?_
  · rintro held c m books known rfl
    exact reversal_unused books ⟨known.1.1.1, known.1.2⟩ status .payoutReversal (by simp)
  · rintro held c m books known ⟨_, rfl, wallet', -, -, returned⟩ uses
    have mine : (theSettled payout row).holds held c := ⟨known.1.1.1, known.1.2⟩
    rcases returned.uses uses with before | same
    · exact reversal_unused books mine status .payoutFeeRefund (by simp) before
    · exact Purpose.text_ne .payoutReversal .payoutFeeRefund (theSettled_plain books mine) (by simp) same
  rintro - held c b books ⟨m₃, ⟨m₂, refunded, moved⟩, rfl⟩ known
  obtain ⟨stored, listed, same, found, own⟩ := theSettled_row ⟨known.1.1.1, known.1.2⟩
  obtain ⟨transactionId, reference, walletId, amount⟩ := continues_eq same
  obtain ⟨m, rfl, wallet, member, its, m₁, returned, refunded⟩ := WalletsService.Did.both refunded
  simp only [Purpose.text_eq, ← reference, ← amount] at returned refunded
  rw [own, ← transactionId] at moved
  rw [← transactionId] at found
  exact PayoutReversed.books books (.intro listed found status member (its.trans walletId.symm) returned
    refunded moved)

/-! ## The request -/

theorem keeping_view (payoutId : Uuid) :
    Keeping .outside T F (view payoutId) (fun _ => T) fun answer => F.and (filedPayout answer.payout) := by
  refine keeping_queryCommitted.bind fun _ => keeping_orThrow.bind fun found =>
    (TransactionsService.keeping_getById _).bind fun transaction =>
    (keeping_each fun _ _ payout _ _ again => ?_).bind fun _ => keeping_orFail_each.bind fun payout =>
    keeping_queryCommitted.bind fun _ => keeping_orFail.bind fun destination =>
    keeping_pure fun _ _ _ known => known
  exact ⟨payout, Table.find?_of_mem (Table.find?_some again).1, .refl payout⟩

theorem keeping_viewByTransaction (transactionId : Uuid) :
    Keeping .outside T F (viewByTransaction transactionId) (fun _ => T) fun _ => F :=
  keeping_queryCommitted.bind fun _ => keeping_orThrow.bind fun _ =>
    keeping_less (keeping_view _) fun _ _ _ known => known.1

theorem keeping_sourceWallet (owner : Owner) (destination : PayoutDestination) (walletId : Option Uuid) :
    Keeping mode T F (sourceWallet owner destination walletId) (fun _ => T) fun wallet =>
      F.and (WalletsService.theWallet wallet.id wallet) := by
  have fits : ∀ wallet : Wallet, Keeping mode T (F.and (WalletsService.theWallet wallet.id wallet))
      (if wallet.currency ≠ destination.currency then
        Txn.throw (destinationMismatchException wallet destination) else pure wallet) (fun _ => T)
      fun wallet => F.and (WalletsService.theWallet wallet.id wallet) := by
    intro wallet
    split_ifs
    · exact keeping_throw
    · exact keeping_pure fun _ _ _ known => known
  unfold sourceWallet
  cases walletId with
  | some walletId => exact (WalletsService.keeping_findOwned _ _).bind fits
  | none => exact (WalletsService.keeping_findWallet _ _).bind fun _ => keeping_orThrow_each.bind fits

theorem keeping_createWithHold (generated : Generated) (owner : Owner) (wallet : Wallet)
    (destination : PayoutDestination) (input : RequestPayoutInput) (fee : FeeQuote)
    (idempotencyKey : String) (nonneg : 0 ≤ fee.amount) :
    Keeping .inside Eq (F.and (WalletsService.theWallet wallet.id wallet))
      (createWithHold generated owner wallet destination input fee idempotencyKey)
      (fun _ => KeepsBooks) fun _ => Fact.nothing := by
  have plain : Colonless (generatePayoutReference generated.payout) := colonless_random (by decide) _ _
  unfold createWithHold
  generalize generatePayoutReference generated.payout = reference at plain ⊢
  refine (LimitsService.keeping_assertWithinLimitsWithin _).bind fun _ =>
    (TransactionsService.keeping_create _ _ _).bind fun row =>
    (WalletsService.keeping_reserveWithin _ _ ?_).bind fun _ => keeping_query.bind fun now =>
    (keeping_save (writes_insertPayout _) (guarded_checkNewPayout _)).bind fun _ =>
    keeping_commit keeping_stay ?_
  · rintro held c m books known ⟨_, rfl, created⟩ uses
    rw [created.2] at uses
    exact uses
  rintro - held c b books ⟨m₂, done, filed⟩ ⟨⟨-, mine⟩, clock, is⟩
  obtain ⟨type, status, charged⟩ : row.type = .withdrawal ∧ row.status = .processing ∧
      row.feeAmount = fee.amount := by
    rw [is]
    exact FeesService.recorded_eq nonneg rfl
  have name : Colonless row.reference := by
    rw [is]
    exact TransactionsService.newTransaction_plain _ _ _ _
  -- what is posted under
  have text : (holdMovement reference (input.amount + fee.amount)).reference =
      postingReference .payoutHold reference := Purpose.text_eq .payoutHold reference
  generalize same : newPayout _ _ _ _ _ _ _ _ = payout at filed
  have its : payout.reference = reference ∧ payout.walletId = wallet.id ∧ payout.currency = wallet.currency ∧
      payout.transactionId = row.id ∧ payout.amount = input.amount := by
    rw [← same]
    exact ⟨rfl, rfl, rfl, rfl, rfl⟩
  obtain ⟨rfl, walletId, currency, transactionId, amount⟩ := its
  rw [text] at done
  rcases done with ⟨m₁, ⟨_, rfl, created⟩, stored, member, own, held⟩ | ⟨⟨_, rfl, created⟩, uses⟩
  · obtain ⟨other, there, its, kept, -⟩ := WalletsService.theWallet_row mine
    obtain rfl := Table.eq_of_key there member (its.trans own.symm)
    have sum : (holdMovement payout.reference (input.amount + fee.amount)).amount =
        payout.amount + row.feeAmount := by
      rw [amount, charged]
      rfl
    rw [sum] at held
    exact PayoutRequested.books books (.intro member type status (charged ▸ nonneg) name plain
      ⟨walletId.trans own.symm, currency.trans kept.symm, transactionId⟩ created held filed)
  · obtain ⟨other, there, taken⟩ := books.journal.done plain uses
    obtain ⟨-, -, free⟩ := Db.checkNewPayout_ok filed.1
    rw [created.2] at free
    have absent := List.find?_eq_none.mp free other there
    simp [taken] at absent

theorem keeping_recover (owner : Owner) (idempotencyKey : String) (error : Err) :
    Keeping .outside T F (recover owner idempotencyKey error) (fun _ => T) fun _ => F := by
  unfold recover
  split_ifs
  · refine keeping_queryCommitted.bind fun winner => ?_
    cases winner with
    | none => exact keeping_throw
    | some winner => exact keeping_viewByTransaction _
  · exact keeping_throw

theorem keeping_request (generated : Generated) (owner : Owner) (input : RequestPayoutInput)
    (idempotencyKey : String) :
    Keeping .outside T Fact.nothing (request generated owner input idempotencyKey) (fun _ => T)
      fun _ => Fact.nothing := by
  refine keeping_queryCommitted.bind fun existing => ?_
  cases existing with
  | some existing => exact keeping_viewByTransaction _
  | none =>
    refine (keeping_queryCommitted.bind fun _ => keeping_orThrow).bind fun destination =>
      keeping_queryCommitted.bind fun now => ?_
    split_ifs
    · exact keeping_throw
    refine (keeping_sourceWallet _ _ _).bind fun wallet =>
      (FeesService.keeping_quote _ _ _ _).bind fun fee => ?_
    refine (leads_tryCatch ((keeping_inTransaction ?_).bind fun _ => keeping_stay) fun error =>
      (keeping_recover _ _ error).bind fun _ => keeping_stay).bind fun outcome => ?_
    · exact keeping_of_given (keeping_createWithHold _ _ _ _ _ _ _)
    cases outcome with
    | inl payout => exact keeping_less (keeping_view _) fun _ _ _ _ => trivial
    | inr winner => exact keeping_stay

end PayoutsService

end Finstack.Services
