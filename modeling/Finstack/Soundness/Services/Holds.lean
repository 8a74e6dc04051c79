import Finstack.Soundness.Services.Movements

/-! # What a hold takes

Requests of payouts and refunds lock the wallet before they hold its money; completions and failures
debit only what is held.
-/

namespace Finstack.Services

open Foundation Discipline

variable {α : Type} {F : Known} {R : α → Known} {mode : Mode} {held : List RowLock} {c : Db}

/-! ## Payouts -/

namespace PayoutsService

theorem spares_view (payoutId : Uuid) : Spares .outside F (view payoutId) fun _ => F :=
  spares_queryCommitted.bind fun _ => spares_orThrow.bind fun _ =>
    (spares_queryCommitted.bind fun _ => spares_orThrow).bind fun _ =>
      spares_queryCommitted.bind fun _ => spares_orFail.bind fun _ =>
        spares_queryCommitted.bind fun _ => spares_orFail.bind fun _ => spares_stay

theorem spares_viewByTransaction (transactionId : Uuid) :
    Spares .outside F (viewByTransaction transactionId) fun _ => F :=
  spares_queryCommitted.bind fun _ => spares_orThrow.bind fun _ => spares_view _

theorem spares_sourceWallet (owner : Owner) (destination : PayoutDestination)
    (walletId : Option Uuid) : Spares .outside F (sourceWallet owner destination walletId) fun _ => F := by
  have fits : ∀ wallet : Wallet, Spares .outside F (if wallet.currency ≠ destination.currency then
      Txn.throw (destinationMismatchException wallet destination) else pure wallet) fun _ => F := by
    intro wallet
    split_ifs
    · exact spares_throw
    · exact spares_stay
  unfold sourceWallet
  cases walletId with
  | some id => exact (spares_queryCommitted.bind fun _ => spares_orThrow).bind fits
  | none => exact spares_queryCommitted.bind fun _ => spares_orThrow.bind fits

theorem spares_createWithHold (generated : Generated) (owner : Owner) (wallet : Wallet)
    (destination : PayoutDestination) (input : RequestPayoutInput) (fee : FeeQuote)
    (idempotencyKey : String) :
    Spares .inside F (createWithHold generated owner wallet destination input fee idempotencyKey)
      fun _ => Fact.nothing :=
  (LimitsService.spares_assertWithinLimitsWithin _).bind fun _ =>
    (TransactionsService.spares_create _ _ _).bind fun _ =>
      (WalletsService.spares_reserveWithin _ _ _).bind fun _ => spares_query.bind fun _ =>
        (spares_save (writes_insertPayout _) (fun _ => rfl) (fun _ => rfl) fun _ => rfl).bind
          fun _ => spares_stay

theorem spares_recover (owner : Owner) (idempotencyKey : String) (error : Err) :
    Spares .outside F (recover owner idempotencyKey error) fun _ => F := by
  unfold recover
  split_ifs
  · refine spares_queryCommitted.bind fun winner => ?_
    cases winner with
    | none => exact spares_throw
    | some winner => exact spares_viewByTransaction _
  · exact spares_throw

theorem spares_request (generated : Generated) (owner : Owner) (input : RequestPayoutInput)
    (idempotencyKey : String) :
    Spares .outside Fact.nothing (request generated owner input idempotencyKey) fun _ => Fact.nothing := by
  refine spares_queryCommitted.bind fun existing => ?_
  cases existing with
  | some existing => exact spares_viewByTransaction _
  | none =>
    refine (spares_queryCommitted.bind fun _ => spares_orThrow).bind fun destination =>
      spares_queryCommitted.bind fun now => ?_
    split_ifs
    · exact spares_throw
    refine (spares_sourceWallet _ _ _).bind fun wallet => (FeesService.spares_quote _ _ _ _).bind
      fun fee => (leads_tryCatch ((spares_inTransaction (spares_createWithHold _ _ _ _ _ _ _)).bind
        fun _ => spares_stay) fun error => (spares_recover _ _ error).bind fun _ => spares_stay).bind
          fun outcome => ?_
    cases outcome with
    | inl payout => exact spares_view _
    | inr winner => exact spares_stay

/-- A payout leaves from what it holds. -/
theorem spares_complete (fresh : Fresh) (payout : Payout) :
    Spares .outside F (complete fresh payout) fun _ => Fact.nothing := by
  refine (WalletsService.spares_clearingAccount _ _).bind fun clearing =>
    spares_inTransaction (R := fun _ => Fact.nothing)
      ((TransactionsService.spares_lockWithin _).bind fun transaction => ?_)
  split_ifs
  · exact spares_pure fun _ _ _ _ => trivial
  refine (WalletsService.spares_getWallet _).bind fun wallet =>
    (LedgerService.spares_postWithin _ ?_).bind fun posted => Leads.bind (R := fun _ => Fact.nothing)
      (U := fun _ => Sparing) ?_ fun _ => spares_query.bind fun now =>
        (TransactionsService.spares_transition _ _ _).bind fun _ => OutboxService.spares_add _
  · intro entry member taken held c inv known
    rcases List.mem_pair.mp member with rfl | rfl
    · exact mayPay_held .reserved inv known.2.1 (by decide)
    · cases taken
  · unfold collectFee
    split_ifs
    · exact (WalletsService.spares_collectFeeWithin _ _ _ _ fun own => by cases own).bind
        fun _ => spares_pure fun _ _ _ _ => trivial
    · exact spares_pure fun _ _ _ _ => trivial

theorem spares_fail (id : Uuid) (payout : Payout) (failureCode failureReason : String) :
    Spares .outside F (fail id payout failureCode failureReason) fun _ => Fact.nothing := by
  refine spares_inTransaction (R := fun _ => Fact.nothing)
    ((TransactionsService.spares_lockWithin _).bind fun transaction => ?_)
  split_ifs
  · exact spares_pure fun _ _ _ _ => trivial
  · exact (WalletsService.spares_releaseWithin _ _ _).bind fun _ =>
      (TransactionsService.spares_transition _ _ _).bind fun _ => OutboxService.spares_add _

theorem spares_reverse (fresh : Fresh) (payout : Payout) :
    Spares .outside F (reverse fresh payout) fun _ => Fact.nothing := by
  refine (WalletsService.spares_clearingAccount _ _).bind fun clearing =>
    spares_inTransaction (R := fun _ => Fact.nothing)
      ((TransactionsService.spares_lockWithin _).bind fun transaction => ?_)
  split_ifs
  · exact spares_pure fun _ _ _ _ => trivial
  refine (WalletsService.spares_getWallet _).bind fun wallet =>
    (LedgerService.spares_postWithin _ ?_).bind fun posted => Leads.bind (R := fun _ => Fact.nothing)
      (U := fun _ => Sparing) ?_ fun _ => (TransactionsService.spares_transition _ _ _).bind fun _ =>
        OutboxService.spares_add _
  · intro entry member taken held c inv known
    rcases List.mem_pair.mp member with rfl | rfl
    · exact mayPay_system inv known.1.2
    · cases taken
  · unfold refundFee
    split_ifs
    · exact (WalletsService.spares_refundFeeWithin _ _ _).bind fun _ => spares_stay
    · exact spares_pure fun _ _ _ _ => trivial

end PayoutsService

/-! ## Refunds -/

namespace RefundsService

theorem spares_view (refundId : Uuid) : Spares .outside F (view refundId) fun _ => F :=
  spares_queryCommitted.bind fun _ => spares_orThrow.bind fun _ =>
    (spares_queryCommitted.bind fun _ => spares_orThrow).bind fun _ =>
      spares_queryCommitted.bind fun _ => spares_orFail.bind fun _ => spares_stay

theorem spares_reversal (payment : Payment) (refundedBefore amount : Int) :
    Spares .inside F (reversal payment refundedBefore amount) fun _ => F := by
  unfold reversal
  split
  · exact spares_stay
  · exact (FxService.spares_getQuoteWithin _).bind fun _ => spares_ret

theorem spares_placeHold (generated : Generated) (adminId : Uuid) (payment : Payment) (wallet : Wallet)
    (amount : Int) (reversal : ConversionReversal) (reason idempotencyKey : String) :
    Spares .inside F (placeHold generated adminId payment wallet amount reversal reason idempotencyKey)
      fun _ => Fact.nothing := by
  refine (TransactionsService.spares_create _ _ _).bind fun transaction =>
    (WalletsService.spares_reserveSplitWithin _ _ _ _).bind fun _ => ?_
  dsimp only
  split_ifs
  · exact (PaymentsService.spares_setHeldAmountWithin _ _).bind fun _ => spares_query.bind fun now =>
      (spares_save (writes_insertRefund _) (fun _ => rfl) (fun _ => rfl) fun _ => rfl).bind
        fun _ => spares_stay
  · exact spares_query.bind fun now => (spares_save (writes_insertRefund _) (fun _ => rfl)
      (fun _ => rfl) fun _ => rfl).bind fun _ => spares_stay

theorem spares_createWithHold (generated : Generated) (adminId paymentId : Uuid) (input : RefundInput)
    (idempotencyKey : String) :
    Spares .inside F (createWithHold generated adminId paymentId input idempotencyKey)
      fun _ => Fact.nothing := by
  refine (PaymentsService.spares_lockWithin _).bind fun payment =>
    (TransactionsService.spares_getById _ _).bind fun paymentTransaction => ?_
  split_ifs
  · exact spares_throw
  · exact spares_throw
  refine spares_query.bind fun refundedBefore => ?_
  dsimp only
  split_ifs
  · exact spares_throw
  · exact (WalletsService.spares_getWallet _).bind fun wallet => (spares_reversal _ _ _).bind
      fun share => spares_placeHold _ _ _ _ _ _ _ _

theorem spares_recover (adminId : Uuid) (idempotencyKey : String) (error : Err) :
    Spares .outside F (recover adminId idempotencyKey error) fun _ => F := by
  unfold recover
  split_ifs
  · refine spares_queryCommitted.bind fun winner => ?_
    cases winner with
    | none => exact spares_throw
    | some winner => exact spares_view _
  · exact spares_throw

theorem spares_request (generated : Generated) (adminId paymentId : Uuid) (input : RefundInput)
    (idempotencyKey : String) :
    Spares .outside Fact.nothing (request generated adminId paymentId input idempotencyKey)
      fun _ => Fact.nothing := by
  refine spares_queryCommitted.bind fun existing => ?_
  cases existing with
  | some existing => exact spares_view _
  | none =>
    refine (leads_tryCatch ((spares_inTransaction (spares_createWithHold _ _ _ _ _)).bind
      fun _ => spares_stay) fun error => (spares_recover _ _ error).bind fun _ => spares_stay).bind
        fun outcome => ?_
    cases outcome with
    | inl refund => exact spares_view _
    | inr winner => exact spares_stay

theorem spares_fxAccounts (fresh : Fresh) (refund : Refund) :
    Spares mode F (fxAccounts fresh refund) fun accounts => F.and (Fact.each accounts fun fx =>
      (knowsSystemAccount fx.walletRevenue).and (knowsSystemAccount fx.chargedPosition)) := by
  unfold fxAccounts
  split_ifs
  · exact spares_pure fun _ _ _ known => ⟨known, trivial⟩
  · exact (LedgerService.spares_ensureSystemAccount _ _).bind fun _ =>
      (LedgerService.spares_ensureSystemAccount _ _).bind fun _ =>
        (LedgerService.spares_ensureSystemAccount _ _).bind fun _ =>
          (LedgerService.spares_ensureSystemAccount _ _).bind fun _ =>
            spares_pure fun _ _ _ known => ⟨known.1.1.1.1, known.1.1.2, known.1.2⟩

theorem spares_markPaymentReversed (paymentId : Uuid) :
    Spares .inside F (markPaymentReversedIfFullyRefunded paymentId) fun _ => F := by
  refine (PaymentsService.spares_getById _).bind fun payment => spares_query.bind fun total => ?_
  split_ifs
  · exact (TransactionsService.spares_transition _ _ _).bind fun _ => spares_stay
  · exact spares_stay

/-- A refund leaves from what it holds. -/
theorem spares_completeOpen (fresh : Fresh) (refund : Refund) (clearing : Uuid)
    (fx : Option FxAccounts) (transaction : Transaction)
    (system : ∀ held c, c.OwnAccounts → F.holds held c → (Fact.each fx fun fx =>
      (knowsSystemAccount fx.walletRevenue).and (knowsSystemAccount fx.chargedPosition)).holds held c) :
    Spares .inside F (completeOpen fresh refund clearing fx transaction) fun _ => Fact.nothing := by
  refine (WalletsService.spares_getWallet _).bind fun wallet =>
    (LedgerService.spares_postWithin _ ?_).bind fun leg => Leads.bind (R := fun _ => Fact.nothing)
      (U := fun _ => Sparing) ?_ fun _ => spares_query.bind fun now =>
        (TransactionsService.spares_transition _ _ _).bind fun _ =>
          (spares_markPaymentReversed _).bind fun _ => OutboxService.spares_add _
  · intro entry member taken held c inv known
    rcases List.mem_cons.mp member with rfl | member
    · exact mayPay_held .reserved inv known.2.1 (by decide)
    · have mine := system held c inv known.1
      cases fx with
      | none =>
        obtain rfl := List.mem_singleton.mp member
        cases taken
      | some fx =>
        simp only [List.mem_append, List.mem_ite_nil_right, List.mem_singleton] at member
        rcases member with ⟨-, rfl⟩ | rfl
        · exact mayPay_system inv mine.1
        · cases taken
  · unfold postCharged
    cases fx with
    | none => exact spares_pure fun _ _ _ _ => trivial
    | some fx =>
      refine (LedgerService.spares_postWithin _ ?_).bind fun _ => spares_pure fun _ _ _ _ => trivial
      intro entry member taken held c inv known
      rcases List.mem_pair.mp member with rfl | rfl
      · exact mayPay_system inv (system held c inv known.1).2
      · cases taken

theorem spares_complete (fresh : Fresh) (refundId : Uuid) :
    Spares .outside F (complete fresh refundId) fun _ => Fact.nothing := by
  refine (spares_queryCommitted.bind fun _ => spares_orFail).bind fun refund =>
    (WalletsService.spares_clearingAccount _ _).bind fun clearing =>
      (spares_fxAccounts _ _).bind fun fx => spares_inTransaction (R := fun _ => Fact.nothing)
        ((TransactionsService.spares_lockWithin _).bind fun transaction => ?_)
  split_ifs
  · exact spares_pure fun _ _ _ _ => trivial
  · exact spares_completeOpen _ _ _ _ _ fun _ _ _ known => known.2

theorem spares_returnToPending (refund : Refund) :
    Spares .inside F (returnToPending refund) fun _ => F := by
  unfold returnToPending
  split_ifs
  · exact spares_stay
  · refine (PaymentsService.spares_lockWithin _).bind fun payment => spares_query.bind fun now => ?_
    split_ifs
    · exact (PaymentsService.spares_setHeldAmountWithin _ _).bind fun _ => spares_stay
    · exact spares_stay

theorem spares_fail (id refundId : Uuid) (failureCode failureReason : String) :
    Spares .outside F (fail id refundId failureCode failureReason) fun _ => Fact.nothing := by
  refine (spares_queryCommitted.bind fun _ => spares_orFail).bind fun refund =>
    spares_inTransaction (R := fun _ => Fact.nothing)
      ((TransactionsService.spares_lockWithin _).bind fun transaction => ?_)
  split_ifs
  · exact spares_pure fun _ _ _ _ => trivial
  · exact (spares_returnToPending _).bind fun toPending =>
      (WalletsService.spares_releaseSplitWithin _ _ _ _).bind fun _ =>
        (TransactionsService.spares_transition _ _ _).bind fun _ => OutboxService.spares_add _

end RefundsService

end Finstack.Services
