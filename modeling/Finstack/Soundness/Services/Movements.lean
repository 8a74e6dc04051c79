import Finstack.Soundness.Services.Spares

/-! # What a movement takes

Deposits, withdrawals, transfers, conversions and credits, followed to their commit: what they debit
may pay, or nothing is committed.
-/

namespace Finstack.Services

open Foundation Discipline

variable {α : Type} {F : Known} {R : α → Known} {mode : Mode} {held : List RowLock} {c : Db}

/-! ## Conversions -/

namespace FxService

theorem spares_createQuote (id : Uuid) (userId : Option Uuid) (source target : String)
    (sourceAmount : Int) (offer : Except Err Offer) :
    Spares mode F (createQuote id userId source target sourceAmount offer) fun _ => F := by
  refine spares_ret.bind fun offer => (leads_separately (R := fun _ => F) (fun c _ write inv done => ?_)
    fun _ _ _ _ _ _ known => known).bind fun _ => spares_stay
  let row := newQuote id userId source target sourceAmount offer
  rw [same_of_databaseCheck done]
  have sparing : Sparing c (c.onFxQuotes (·.insert row)) :=
    (Sparing.refl c).aside rfl rfl (kept_refl _ fun _ => rfl)
  obtain ⟨inv', own⟩ := sparing.mayCommit inv
  exact ⟨.inr ⟨inv', own, (writes_insertQuote row).frame c⟩, .inr ⟨own.1, inv'⟩⟩

theorem spares_getQuoteWithin (quoteId : Uuid) :
    Spares .inside F (getQuoteWithin quoteId) fun _ => F :=
  spares_query.bind fun _ => spares_orThrow

theorem spares_getQuote (quoteId : Uuid) (userId : Option (Option Uuid)) :
    Spares mode F (getQuote quoteId userId) fun _ => F := by
  refine spares_queryCommitted.bind fun _ => spares_orThrow.bind fun quote => ?_
  split_ifs
  · exact spares_throw
  · exact spares_stay

theorem spares_systemAccounts (fresh : Fresh) (source target : String) :
    Spares mode F (systemAccounts fresh source target) fun accounts =>
      F.and (knowsSystemAccount accounts.targetPosition) :=
  (LedgerService.spares_ensureSystemAccount _ _).bind fun _ =>
    (LedgerService.spares_ensureSystemAccount _ _).bind fun _ =>
      (LedgerService.spares_ensureSystemAccount _ _).bind fun _ =>
        spares_pure fun _ _ _ known => ⟨known.1.1.1, known.1.2⟩

theorem spares_replay (quote : FxQuote) : Spares .inside F (replay quote) fun _ => F :=
  (spares_query.bind fun _ => spares_orFail).bind fun _ =>
    (spares_query.bind fun _ => spares_orFail).bind fun _ => spares_stay

/-- The source leg debits the account given, the target leg one of the platform's. -/
theorem spares_execute (fresh : Fresh) {input : ConvertInput}
    {accounts : Finstack.FxService.ConversionAccounts} (quote : FxQuote)
    (source : ∀ held c, c.OwnAccounts → F.holds held c → MayPay c input.sourceDebitAccountId)
    (target : ∀ held c, c.OwnAccounts → F.holds held c → MayPay c accounts.targetPosition) :
    Spares .inside F (execute fresh input accounts quote) fun _ => F := by
  refine (LedgerService.spares_postWithin _ ?_).bind fun sourceLeg =>
    (LedgerService.spares_postWithin _ ?_).bind fun targetLeg => spares_query.bind fun now => ?_
  rotate_left 2
  · have byId : ∀ row, (consume input.reference now sourceLeg.transaction.id
        targetLeg.transaction.id row).id = row.id := fun _ => rfl
    exact (spares_save (writes_modifyQuote List.mem_cons_self byId) (fun _ => rfl) (fun _ => rfl)
      fun _ => rfl).bind fun _ => spares_query.bind fun _ => spares_orFail.bind fun _ => spares_stay
  · intro entry member taken
    rcases List.mem_pair.mp member with rfl | rfl
    · exact source
    · cases taken
  · intro entry member taken
    simp only [Finstack.FxService.targetLeg, List.mem_append, List.mem_pair,
      List.mem_ite_nil_right, List.mem_singleton] at member
    rcases member with (rfl | rfl) | ⟨-, rfl⟩
    · exact target
    · cases taken
    · cases taken

/-- Whatever comes of it, what was done first has been done. -/
theorem spares_convertWithin (fresh : Fresh) {input : ConvertInput} {beforeConvert : DbTxn Unit}
    {F' : Known} (before : ∀ {F : Known}, Spares .inside F beforeConvert fun _ => F.and F')
    (source : ∀ held c, c.OwnAccounts → (F.and F').holds held c →
      MayPay c input.sourceDebitAccountId) :
    Spares .inside F (convertWithin fresh input beforeConvert) fun _ => F.and F' := by
  refine (spares_getQuote _ _).bind fun preview => (spares_systemAccounts _ _ _).bind fun accounts =>
    before.bind fun _ => spares_select.bind fun locked => spares_orFail.bind fun quote => ?_
  refine spares_mono (R := fun _ => (F.and (knowsSystemAccount accounts.targetPosition)).and F') ?_
    fun _ _ _ _ known => ⟨known.1.1, known.2⟩
  split_ifs
  · exact spares_replay quote
  · exact spares_throw
  · refine spares_query.bind fun now => ?_
    split_ifs
    · exact spares_throw
    · exact spares_execute _ quote (fun held c inv known => source held c inv ⟨known.1.1, known.2⟩)
        fun held c inv known => mayPay_system inv known.1.2

end FxService

/-! ## Movements -/

namespace WalletsService

open Finstack.Services.LedgerService

theorem spares_clearingAccount (id : Uuid) (currency : String) :
    Spares mode F (clearingAccount id currency) fun account => F.and (knowsSystemAccount account.id) :=
  spares_ensureSystemAccount id _

theorem spares_revenueAccount (id : Uuid) (currency : String) :
    Spares mode F (revenueAccount id currency) fun account => F.and (knowsSystemAccount account.id) :=
  spares_ensureSystemAccount id _

/-- A movement of its own locks its wallets first. -/
theorem spares_walletPost (id : Uuid) (walletIds : List Uuid) {input : PostingInput}
    (may : ∀ entry ∈ input.entries, entry.direction = .debit → ∀ held c, c.OwnAccounts →
      (F.and (knowsActive walletIds)).holds held c → MayPay c entry.accountId) :
    Spares .outside F (post id walletIds input) fun _ => Fact.nothing :=
  spares_post id (spares_lockActiveWallets walletIds) may

theorem spares_deposit (fresh : Fresh) (walletId : Uuid) (movement : MoneyMovement) :
    Spares .outside F (deposit fresh walletId movement) fun _ => Fact.nothing :=
  (spares_getWallet walletId).bind fun _ => (spares_clearingAccount _ _).bind fun _ =>
    spares_walletPost _ _ <| may_move fun _ _ inv known => mayPay_system inv known.1.2

theorem spares_withdraw (fresh : Fresh) (walletId : Uuid) (movement : MoneyMovement) :
    Spares .outside F (withdraw fresh walletId movement) fun _ => Fact.nothing := by
  refine (spares_getWallet walletId).bind fun wallet => (spares_clearingAccount _ _).bind fun _ =>
    spares_walletPost _ _ <| may_move ?_
  rintro held c inv ⟨⟨⟨-, stored, rfl⟩, -⟩, active⟩
  exact mayPay_available inv stored active List.mem_cons_self

theorem spares_transfer (fresh : Fresh) (fromWalletId toWalletId : Uuid) (movement : MoneyMovement) :
    Spares .outside F (transfer fresh fromWalletId toWalletId movement) fun _ => Fact.nothing := by
  refine (spares_getWallet fromWalletId).bind fun source =>
    (spares_getWallet toWalletId).bind fun destination => ?_
  split_ifs
  · exact spares_throw
  · refine spares_walletPost _ _ <| may_move ?_
    rintro held c inv ⟨⟨⟨-, stored, rfl⟩, -⟩, active⟩
    exact mayPay_available inv stored active List.mem_cons_self

theorem spares_reserve (fresh : Fresh) (walletId : Uuid) (movement : MoneyMovement) :
    Spares .outside F (reserve fresh walletId movement) fun _ => Fact.nothing := by
  refine (spares_getWallet walletId).bind fun wallet => spares_walletPost _ _ <| may_move ?_
  rintro held c inv ⟨⟨-, stored, rfl⟩, active⟩
  exact mayPay_available inv stored active List.mem_cons_self

theorem spares_release (fresh : Fresh) (walletId : Uuid) (movement : MoneyMovement) :
    Spares .outside F (release fresh walletId movement) fun _ => Fact.nothing :=
  (spares_getWallet walletId).bind fun _ => spares_walletPost _ _ <| may_move fun _ _ inv known =>
    mayPay_held .reserved inv known.1.2.1 (by decide)

theorem spares_depositWithin (fresh : Fresh) (walletId : Uuid) (movement : MoneyMovement)
    (into : WalletBalance) : Spares .inside F (depositWithin fresh walletId movement into) fun _ =>
      F.and (knowsActive [walletId]) := by
  refine (spares_getWallet walletId).bind fun wallet => (spares_clearingAccount _ _).bind fun _ =>
    (spares_lockActiveWallets _).bind fun _ => ?_
  refine spares_mono (spares_postWithin _ <| may_move fun _ _ inv known =>
    mayPay_system inv known.1.2) ?_
  rintro _ held c - ⟨⟨⟨known, -⟩, -⟩, active⟩
  exact ⟨known, active⟩

theorem spares_transferWithin (id : Uuid) {source destination : Wallet} (movement : MoneyMovement)
    (stored : ∀ held c, c.OwnAccounts → F.holds held c → (knowsWallet source).holds held c) :
    Spares .inside F (transferWithin id source destination movement) fun _ =>
      F.and (knowsActive [source.id, destination.id]) := by
  unfold transferWithin
  split_ifs
  · exact spares_throw
  · refine (spares_lockActiveWallets _).bind fun _ => spares_postWithin _ <| may_move ?_
    exact fun held c inv known =>
      mayPay_available inv (stored held c inv known.1) known.2 List.mem_cons_self

theorem spares_reserveWithin (id walletId : Uuid) (movement : MoneyMovement) :
    Spares .inside F (reserveWithin id walletId movement) fun _ => Fact.nothing := by
  refine (spares_lockActiveWallets _).bind fun _ => (spares_getWallet walletId).bind fun wallet => ?_
  refine spares_mono (spares_postWithin _ <| may_move ?_) fun _ _ _ _ _ => trivial
  rintro held c inv ⟨⟨-, active⟩, stored, rfl⟩
  exact mayPay_available inv stored active List.mem_cons_self

theorem spares_releaseWithin (id walletId : Uuid) (movement : MoneyMovement) :
    Spares .inside F (releaseWithin id walletId movement) fun _ => Fact.nothing :=
  (spares_getWallet walletId).bind fun _ => spares_mono (spares_postWithin _ <| may_move
    fun _ _ inv known => mayPay_held .reserved inv known.2.1 (by decide))
      fun _ _ _ _ _ => trivial

theorem spares_makeAvailableWithin (id walletId : Uuid) (movement : MoneyMovement) :
    Spares .inside F (makeAvailableWithin id walletId movement) fun _ => Fact.nothing :=
  (spares_getWallet walletId).bind fun _ => spares_mono (spares_postWithin _ <| may_move
    fun _ _ inv known => mayPay_held .pending inv known.2.1 (by decide))
      fun _ _ _ _ _ => trivial

theorem spares_reserveSplitWithin (id walletId : Uuid) (movement : MoneyMovement) (taken : Int) :
    Spares .inside F (reserveSplitWithin id walletId movement taken) fun _ => Fact.nothing := by
  refine (spares_lockActiveWallets _).bind fun _ => (spares_getWallet walletId).bind fun wallet => ?_
  refine spares_mono (spares_postWithin _ <| may_split (fun _ _ _ known => known.2.1) ?_)
    fun _ _ _ _ _ => trivial
  rintro - held c - ⟨⟨-, active⟩, -, rfl⟩
  exact active

theorem spares_releaseSplitWithin (id walletId : Uuid) (movement : MoneyMovement) (taken : Int) :
    Spares .inside F (releaseSplitWithin id walletId movement taken) fun _ => Fact.nothing :=
  (spares_getWallet walletId).bind fun _ => spares_mono (spares_postWithin _ <| may_split
    (fun _ _ _ known => known.2.1) fun side => by cases side) fun _ _ _ _ _ => trivial

/-- A fee of the available balance relies on the lock of the movement before it. -/
theorem spares_collectFeeWithin (fresh : Fresh) (walletId : Uuid) (balance : WalletBalance)
    (movement : MoneyMovement) (active : balance = .available → ∀ held c, c.OwnAccounts →
      F.holds held c → ∃ ids, walletId ∈ ids ∧ (knowsActive ids).holds held c) :
    Spares .inside F (collectFeeWithin fresh walletId balance movement) fun _ => F := by
  refine (spares_getWallet walletId).bind fun wallet => (spares_revenueAccount _ _).bind fun _ => ?_
  refine spares_mono (spares_postWithin _ <| may_move ?_) fun _ _ _ _ known => known.1.1
  rintro held c inv ⟨⟨known, stored, rfl⟩, -⟩
  by_cases own : balance = .available
  · obtain ⟨ids, member, locked⟩ := active own held c inv known
    subst own
    exact mayPay_available inv stored locked member
  · exact mayPay_held _ inv stored own

theorem spares_refundFeeWithin (fresh : Fresh) (walletId : Uuid) (movement : MoneyMovement) :
    Spares .inside F (refundFeeWithin fresh walletId movement) fun _ => Fact.nothing :=
  (spares_getWallet walletId).bind fun _ => (spares_revenueAccount _ _).bind fun _ =>
    spares_mono (spares_postWithin _ <| may_move fun _ _ inv known => mayPay_system inv known.2)
      fun _ _ _ _ _ => trivial

/-! ### Conversions -/

theorem spares_prepareConversionDeposit (id walletId quoteId : Uuid) :
    Spares mode F (prepareConversionDeposit id walletId quoteId) fun prepared =>
      F.and (knowsSystemAccount prepared.2.id) := by
  refine (spares_getWallet walletId).bind fun wallet => (FxService.spares_getQuote _ _).bind
    fun quote => ?_
  split_ifs
  · exact spares_throw
  · exact (spares_clearingAccount _ _).bind fun clearing =>
      spares_pure fun _ _ _ known => ⟨known.1.1, known.2⟩

theorem spares_depositWithConversionWithin (fresh : Fresh) (walletId : Uuid)
    (input : ConversionDeposit) (into : WalletBalance) :
    Spares .inside F (depositWithConversionWithin fresh walletId input into) fun _ =>
      F.and (knowsActive [walletId]) := by
  refine (spares_prepareConversionDeposit _ _ _).bind fun ⟨wallet, clearing⟩ => ?_
  refine spares_mono (FxService.spares_convertWithin fresh (spares_lockActiveWallets [walletId])
    fun held c inv known => mayPay_system inv known.1.2) fun _ _ _ _ known => ⟨known.1.1, known.2⟩

theorem spares_depositWithConversion (fresh : Fresh) (walletId : Uuid) (input : ConversionDeposit) :
    Spares .outside F (depositWithConversion fresh walletId input) fun _ => Fact.nothing := by
  refine (spares_prepareConversionDeposit _ _ _).bind fun ⟨wallet, clearing⟩ => ?_
  exact spares_inTransaction (FxService.spares_convertWithin fresh (spares_lockActiveWallets [walletId])
    fun held c inv known => mayPay_system inv known.1.2)

theorem spares_convertBetweenWallets (fresh : Fresh) (owner : Owner) (fromWalletId toWalletId : Uuid)
    (input : ConversionDeposit) :
    Spares .outside F (convertBetweenWallets fresh owner fromWalletId toWalletId input)
      fun _ => Fact.nothing := by
  refine (spares_findOwned owner fromWalletId).bind fun source =>
    (spares_findOwned owner toWalletId).bind fun destination =>
      (FxService.spares_getQuote _ _).bind fun quote => ?_
  split_ifs
  · exact spares_throw
  · exact spares_inTransaction (FxService.spares_convertWithin fresh (spares_lockActiveWallets _)
      fun held c inv known => mayPay_available inv known.1.1.2 known.2 List.mem_cons_self)

end WalletsService

/-! ## Records, fees and limits -/

namespace TransactionsService

theorem spares_create (id : Uuid) (random : Nat) (input : NewTransaction) :
    Spares .inside F (create id random input) fun _ => F :=
  spares_query.bind fun _ => (spares_save (writes_insertRow _) (fun _ => rfl) (fun _ => rfl)
    fun _ => rfl).bind fun _ => spares_stay

theorem spares_getById (manager : Manager) (id : Uuid) :
    Spares .inside F (getById manager id) fun _ => F := by
  refine Leads.bind ?_ fun _ => spares_orThrow
  cases manager
  · exact spares_query
  · exact spares_queryCommitted

theorem spares_lockWithin (id : Uuid) : Spares .inside F (lockWithin id) fun _ => F :=
  spares_select.bind fun _ => spares_orThrow

theorem spares_transition (id : Uuid) (status : TransactionStatus) (patch : TransitionPatch) :
    Spares .inside F (transition id status patch) fun _ => F :=
  (spares_lockWithin id).bind fun _ => spares_check.bind fun _ =>
    (spares_save (writes_modifyTransaction id (keeps_apply patch status)) (fun _ => rfl) (fun _ => rfl)
      fun _ => rfl).bind fun _ => spares_query.bind fun _ => spares_orFail

end TransactionsService

theorem FeesService.spares_quote (operation : FeeOperation) (currency : String) (amount : Int)
    (organizationId : Option Uuid) :
    Spares mode F (FeesService.quote operation currency amount organizationId) fun _ => F := by
  refine Leads.bind (R := fun _ => F) (U := fun _ => Sparing) ?_ fun rule => ?_
  · cases organizationId with
    | none => exact spares_queryCommitted
    | some id =>
      refine spares_queryCommitted.bind fun own => ?_
      split_ifs
      · exact spares_stay
      · exact spares_queryCommitted
  · cases rule with
    | none => exact spares_stay
    | some rule => exact spares_ret.bind fun _ => spares_stay

theorem LimitsService.spares_assertWithinLimitsWithin (input : LimitInput) :
    Spares .inside F (LimitsService.assertWithinLimitsWithin input) fun _ => F := by
  refine Leads.bind (R := fun _ => F) (U := fun _ => Sparing) ?_ fun active => ?_
  · unfold LimitsService.activeRule
    split
    · refine spares_queryCommitted.bind fun own => ?_
      split_ifs
      · exact spares_stay
      · exact spares_queryCommitted
    · exact spares_queryCommitted
  · cases active with
    | none => exact spares_stay
    | some rule =>
      refine spares_check.bind fun _ => ?_
      split_ifs
      · refine spares_select.bind fun _ => Leads.bind (R := fun _ => F) (U := fun _ => Sparing) ?_
          fun _ => spares_check
        refine spares_query.bind fun now => spares_query.bind fun daily => ?_
        split_ifs
        · exact spares_query.bind fun _ => spares_stay
        · exact spares_stay
      · exact spares_stay

theorem OutboxService.spares_add (event : OutboxEvent) :
    Spares .inside F (OutboxService.add event) fun _ => F :=
  spares_execute (writes_addEvent event) (fun _ => rfl) fun _ => rfl

/-! ## Transfers -/

namespace TransfersService

theorem spares_senderWallet (userId : Uuid) (input : TransferInput) :
    Spares mode F (senderWallet userId input) fun wallet => F.and (knowsWallet wallet) := by
  refine Leads.bind (R := fun _ => F) (U := fun _ => Sparing) ?_ fun currency => ?_
  · unfold currencyOf
    cases input.currency with
    | some currency => exact spares_stay
    | none => exact spares_queryCommitted.bind fun _ => spares_stay
  · cases currency with
    | none => exact spares_throw
    | some currency =>
      exact (WalletsService.spares_findWallet _ currency).bind fun _ => spares_orThrow_each

theorem spares_collectFee (fresh : Fresh) {source : Wallet} (transaction : Transaction)
    (fee : FeeQuote) (active : ∀ held c, c.OwnAccounts → F.holds held c →
      ∃ ids, source.id ∈ ids ∧ (knowsActive ids).holds held c) :
    Spares .inside F (collectFee fresh source transaction fee) fun _ => F := by
  unfold collectFee
  split_ifs
  · exact (WalletsService.spares_collectFeeWithin _ _ _ _ fun _ => active).bind fun _ => spares_stay
  · exact spares_stay

theorem spares_move (generated : Generated) (userId recipientId : Uuid) {source : Wallet}
    (destination : Wallet) (input : TransferInput) (fee : FeeQuote) (idempotencyKey : String)
    (stored : ∀ held c, c.OwnAccounts → F.holds held c → (knowsWallet source).holds held c) :
    Spares .inside F (move generated userId recipientId source destination input fee idempotencyKey)
      fun _ => Fact.nothing := by
  refine (LimitsService.spares_assertWithinLimitsWithin _).bind fun _ =>
    (TransactionsService.spares_create _ _ _).bind fun transaction =>
      (WalletsService.spares_transferWithin _ _ stored).bind fun _ => ?_
  have active : ∀ held c, c.OwnAccounts →
      (F.and (knowsActive [source.id, destination.id])).holds held c →
      ∃ ids, source.id ∈ ids ∧ (knowsActive ids).holds held c :=
    fun _ _ _ known => ⟨_, List.mem_cons_self, known.2⟩
  exact (spares_collectFee _ _ _ active).bind fun _ => spares_query.bind fun now =>
    (TransactionsService.spares_transition _ _ _).bind fun completed =>
      (OutboxService.spares_add _).bind fun _ => spares_pure fun _ _ _ _ => trivial

theorem spares_transfer (generated : Generated) (userId : Uuid) (input : TransferInput)
    (idempotencyKey : String) :
    Spares .outside F (transfer generated userId input idempotencyKey) fun _ => Fact.nothing := by
  refine spares_queryCommitted.bind fun existing => ?_
  cases existing with
  | some existing => exact spares_pure fun _ _ _ _ => trivial
  | none =>
    refine spares_queryCommitted.bind fun found => spares_orThrow.bind fun recipient => ?_
    split_ifs
    · exact spares_throw
    refine (spares_senderWallet userId input).bind fun source =>
      (spares_queryCommitted.bind fun found => spares_orThrow).bind fun destination =>
        (FeesService.spares_quote _ _ _ _).bind fun fee => ?_
    refine leads_tryCatch (spares_inTransaction (spares_move _ _ _ _ _ _ _ fun _ _ _ known => known.2))
      fun error => ?_
    unfold recover
    split_ifs
    · refine spares_queryCommitted.bind fun winner => ?_
      cases winner
      · exact spares_throw
      · exact spares_stay
    · exact spares_throw

end TransfersService

/-! ## Payments -/

namespace PaymentsService

theorem spares_lockWithin (id : Uuid) : Spares .inside F (lockWithin id) fun _ => F :=
  spares_select.bind fun _ => spares_orThrow

theorem spares_getById (id : Uuid) : Spares .inside F (getById .transaction id) fun _ => F :=
  spares_query.bind fun _ => spares_orThrow

theorem spares_update (id : Uuid) {change : Payment → Payment}
    (byId : ∀ row, (change row).id = row.id)
    (byTransaction : ∀ row, (change row).transactionId = row.transactionId) :
    Spares .inside F (update id change) fun _ => F :=
  spares_save (writes_modifyPayment id byId byTransaction) (fun _ => rfl) (fun _ => rfl) fun _ => rfl

theorem spares_setHeldAmountWithin (id : Uuid) (pendingAmount : Int) :
    Spares .inside F (setHeldAmountWithin id pendingAmount) fun _ => F :=
  spares_update id (fun _ => rfl) fun _ => rfl

end PaymentsService

namespace PaymentSettlementService

theorem spares_usableQuoteId (id : Uuid) (requote : Except Err FxService.Offer) (payment : Payment)
    (fxQuoteId : Uuid) : Spares .inside F (usableQuoteId id requote payment fxQuoteId) fun _ => F := by
  refine (FxService.spares_getQuoteWithin _).bind fun quote => spares_query.bind fun now => ?_
  split_ifs
  · exact spares_stay
  · refine (FxService.spares_createQuote _ _ _ _ _ _).bind fun fresh =>
      (PaymentsService.spares_update _ (fun _ => by rfl) fun _ => by rfl).bind fun _ => ?_
    have writes : Writes [RowLock.transaction payment.transactionId] fun db : Db => db := Writes.id _
    exact (spares_execute writes (fun _ => rfl) fun _ => rfl).bind fun _ => spares_stay

/-- Converted or not, the wallet has been locked. -/
theorem spares_creditWallet (fresh : Fresh) (setting : Setting) (payment : Payment)
    (transaction : Transaction) (into : WalletBalance) :
    Spares .inside F (creditWallet fresh setting payment transaction into) fun _ =>
      F.and (knowsActive [payment.walletId]) := by
  unfold creditWallet
  split
  · exact (spares_usableQuoteId _ _ _ _).bind fun quoteId =>
      (WalletsService.spares_depositWithConversionWithin _ _ _ _).bind fun _ => spares_stay
  · exact (WalletsService.spares_depositWithin _ _ _ _).bind fun _ => spares_stay

theorem spares_collectFee (fresh : Fresh) (payment : Payment) (transaction : Transaction) (fee : Int)
    (into : WalletBalance) (active : ∀ held c, c.OwnAccounts → F.holds held c →
      (knowsActive [payment.walletId]).holds held c) :
    Spares .inside F (collectFee fresh payment transaction fee into) fun _ => F := by
  unfold collectFee
  split_ifs
  · exact (WalletsService.spares_collectFeeWithin _ _ _ _ fun _ held c inv known =>
      ⟨_, List.mem_cons_self, active held c inv known⟩).bind fun _ => spares_stay
  · exact spares_stay

theorem spares_creditOpen (fresh : Fresh) (setting : Setting) (payment : Payment)
    (transaction : Transaction) :
    Spares .inside F (creditOpen fresh setting payment transaction) fun _ => Fact.nothing := by
  refine spares_query.bind fun now => (spares_creditWallet _ _ _ _ _).bind fun ⟨id, credited⟩ =>
    spares_query.bind fun completedAt => (TransactionsService.spares_transition _ _ _).bind fun _ =>
      (spares_collectFee _ _ _ _ _ fun _ _ _ known => ?_).bind fun _ =>
        (PaymentsService.spares_update _ (fun _ => by rfl) fun _ => by rfl).bind fun _ =>
          (OutboxService.spares_add _).bind fun _ => spares_pure fun _ _ _ _ => trivial
  exact And.right known

theorem spares_credit (fresh : Fresh) (setting : Setting) (payment : Payment) :
    Spares .outside F (credit fresh setting payment) fun _ => Fact.nothing := by
  refine spares_inTransaction (R := fun _ => Fact.nothing)
    ((TransactionsService.spares_lockWithin _).bind fun transaction => ?_)
  split_ifs
  · exact spares_pure fun _ _ _ _ => trivial
  · exact spares_creditOpen _ _ _ _
  · exact spares_pure fun _ _ _ _ => trivial

theorem spares_fail (payment : Payment) (failureCode failureReason : String) :
    Spares .outside F (fail payment failureCode failureReason) fun _ => Fact.nothing := by
  refine spares_inTransaction (R := fun _ => F)
    ((TransactionsService.spares_lockWithin _).bind fun transaction => ?_)
  split_ifs
  · exact (TransactionsService.spares_transition _ _ _).bind fun _ =>
      (OutboxService.spares_add _).bind fun _ => spares_stay
  all_goals exact spares_stay

end PaymentSettlementService

theorem SettlementReleaseService.spares_release (id paymentId : Uuid) (early : Bool) :
    Spares .outside F (SettlementReleaseService.release id paymentId early) fun _ => Fact.nothing := by
  refine spares_inTransaction (R := fun _ => Fact.nothing)
    ((PaymentsService.spares_lockWithin _).bind fun payment => ?_)
  split_ifs
  · exact spares_pure fun _ _ _ _ => trivial
  · exact (WalletsService.spares_makeAvailableWithin _ _ _).bind fun _ => spares_query.bind fun now =>
      (PaymentsService.spares_update _ (fun _ => by rfl) fun _ => by rfl).bind fun _ =>
        (OutboxService.spares_add _).bind fun _ => spares_stay

end Finstack.Services
