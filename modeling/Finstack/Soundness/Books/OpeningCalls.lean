import Finstack.Foundation.StableFacts
import Finstack.Soundness.Books.Openings
import Finstack.Soundness.Books.PaymentCalls
import Finstack.Soundness.Books.Updates

/-! # Calls that open

`initialize`, up to the checkout with the provider, the opening of wallets, and the status of a wallet.
-/

namespace Finstack

open Foundation Discipline

/-! ## What is written -/

theorem mem_paymentLocks (row : Payment) : RowLock.payment row.id ∈ Db.paymentLocks row := by
  simp [Db.paymentLocks]

theorem transaction_mem_paymentLocks (row : Payment) :
    RowLock.paymentTransaction row.transactionId ∈ Db.paymentLocks row := by
  simp [Db.paymentLocks]

theorem writes_insertPayment (row : Payment) :
    Writes (Db.paymentLocks row) (Db.onPayments (·.insert row)) := by
  constructor
  · intro c c' same l here
    have own := same _ (mem_paymentLocks row)
    simp only [Db.same_observed, Db.observe, Db.Observed.payment.injEq] at own
    have absent : c.payments.find? (key row) = c'.payments.find? (key row) := own
    cases l with
    | payment id =>
      simp only [Db.same_observed, Db.observe, Db.Observed.payment.injEq] at here ⊢
      simp only [Db.onPayments, Table.find?_insert, here]
    | paymentTransaction transactionId =>
      simp only [Db.same_observed, Db.observe, Db.Observed.index.injEq,
        Db.findPaymentByTransaction] at here ⊢
      simp only [Db.onPayments, Table.index_insert, here, absent]
    | _ => exact here
  · intro c l free
    cases l with
    | payment id =>
      have other : row.id ≠ id := fun same =>
        RowLock.ne_of_free free (mem_paymentLocks row) rfl (congrArg RowLock.payment same)
      simp only [Db.same_observed, Db.observe, Db.onPayments, Db.Observed.payment.injEq]
      exact (Table.find?_insert_ne other).symm
    | paymentTransaction transactionId =>
      have other : row.transactionId ≠ transactionId := fun same =>
        RowLock.ne_of_free free (transaction_mem_paymentLocks row) rfl
          (congrArg RowLock.paymentTransaction same)
      simp [Db.same_observed, Db.observe, Db.onPayments, Db.findPaymentByTransaction,
        Table.index_insert, other]
    | _ => rfl

theorem guarded_checkNewPayment (row : Payment) :
    GuardedBy (Db.paymentLocks row) fun db : Db => db.checkNewPayment row = .ok () := by
  intro c c' same checked
  have own := same _ (mem_paymentLocks row)
  have transaction := same _ (transaction_mem_paymentLocks row)
  simp only [Db.same_observed, Db.observe, Db.Observed.payment.injEq,
    Db.Observed.index.injEq] at own transaction
  simp only [Db.checkNewPayment] at checked ⊢
  rw [← own, ← isSome_of_keys transaction]
  exact checked

namespace Services

variable {α : Type} {mode : Mode} {T : Db → Db → Prop} {F : Knowing} {held : List RowLock} {c : Db}

/-! ## Updates on the side -/

/-- An update, on a connection of its own, of what the books do not look at. -/
theorem keeping_alike {locks : List RowLock} {run : Db → Except Err (α × (Db → Db))}
    (allowed : ∀ c a write, c.Books → run c = .ok (a, write) →
      write = id ∨ Writes locks write ∧ c.Alike (write c)) :
    Keeping mode T F (Txn.separately locks run) (fun _ => T) fun _ => F := by
  refine leads_separately (fun c a write inv done => ?_) fun _ _ _ _ _ _ known => known
  rcases allowed c a write inv done with rfl | ⟨writes, alike⟩
  · exact ⟨.inl rfl, .inl rfl⟩
  · exact ⟨.inr ⟨alike.books inv, alike.continues, writes.frame c⟩, .inr ⟨alike.continues, alike.books inv⟩⟩

/-- What needs no locks to be known is still known afterwards. -/
theorem keeping_keep {K : Knowing} {x : DbTxn α} {U : α → Db → Db → Prop} {R : α → Knowing}
    (unlocked : ∀ held c, K.holds held c → K.holds [] c) (keeping : Keeping mode T K x U R) :
    Keeping mode T K x U fun a => (R a).and K := by
  have stable : ∀ {c c'}, booksDiscipline.inv c → booksDiscipline.change c c' → K.holds [] c →
      K.holds [] c' := fun inv change => K.keeps ⟨inv, change, fun _ member => absurd member List.not_mem_nil⟩
  refine Leads.mono (F := K.and (.ofStable (K.holds []) stable))
    (R := fun a => (R a).and (.ofStable (K.holds []) stable))
    (fun held c _ known => ⟨known, unlocked held c known⟩)
    (fun _ _ _ _ known => ⟨known.1, K.more (fun _ member => absurd member List.not_mem_nil) known.2⟩) ?_
  exact Leads.keep (fun inv inv' continues => stable inv ⟨continues, inv'⟩) keeping

/-! ## Wallets -/

namespace WalletsService

/-- One of a wallet's accounts is opened. -/
theorem keeping_createAccount {ids : List Uuid} (id : Uuid) (purpose currency : String) :
    Keeping .inside (Opening ids) F
      (Finstack.LedgerService.createAccount id (Wallets.accountInput purpose currency))
      (fun account => Opening (account.id :: ids)) fun _ => F := by
  let account := Finstack.LedgerService.newAccount id (Wallets.accountInput purpose currency)
  refine Leads.bind (keeping_conclude (R := fun _ => F) (keeping_save (writes_insertAccount account)
    (guarded_checkNewAccount account (.ok ()))) ?_) fun _ => keeping_answer fun _ _ _ known => known
  rintro - held c b - ⟨m, opening, opened⟩ -
  exact opening.account opened rfl rfl

theorem keeping_insertWallet (fresh : Fresh) (owner : Owner) (currency : String) (primary : Option Bool) :
    Keeping .outside T F (insertWallet fresh owner currency primary) (fun _ => T)
      fun _ => Fact.nothing := by
  have opens : ∀ isPrimary : Bool, Keeping .inside (Opening []) F (do
      let account := fun (id : Uuid) (purpose : String) =>
        Finstack.LedgerService.createAccount id (Wallets.accountInput purpose currency)
      let available ← account (fresh 0) "available"
      let pending ← account (fresh 1) "pending"
      let reserved ← account (fresh 2) "reserved"
      let wallet : Wallet := ⟨fresh 3, owner, currency, .active, isPrimary, available.id, pending.id,
        reserved.id⟩
      save (Db.walletLocks wallet) (Db.checkNewWallet wallet) (Db.onWallets (·.insert wallet))
      pure wallet) (fun _ => KeepsBooks) fun _ => Fact.nothing := by
    intro isPrimary
    refine (keeping_createAccount _ _ _).bind fun available => (keeping_createAccount _ _ _).bind
      fun pending => (keeping_createAccount _ _ _).bind fun reserved => keeping_commit (R := fun _ => F)
      ((keeping_saveKnowing (P := fun db => db.wallets.find? (fresh 3) = none)
        (writes_insertWallet _) ?_ fun db passed => Db.absent_of_checkNewWallet passed).bind fun _ =>
          keeping_stay) ?_
    · intro c c' same absent
      have own := same _ (mem_walletLocks _)
      simp only [Db.same_observed, Db.observe, Db.Observed.wallet.injEq] at own
      rwa [own] at absent
    · rintro - held c b books ⟨m, opening, absent, rfl⟩ -
      exact WalletOpened.books books (.intro opening absent)
  refine keeping_inTransaction (Leads.since (T := Opening []) ?_ ?_)
  · rintro c b books rfl
    exact books.opening
  cases primary with
  | some isPrimary => exact opens isPrimary
  | none => exact keeping_query.bind opens

end WalletsService

/-- A status moves no money. -/
theorem AdminService.keeping_setWalletStatus (walletId : Uuid) (change : AdminService.WalletStatusChange) :
    Keeping .outside T F (AdminService.setWalletStatus walletId change) (fun _ => T)
      fun _ => Fact.nothing := by
  refine (WalletsService.keeping_getWallet walletId).bind fun wallet => ?_
  split_ifs
  · exact keeping_throw
  · exact keeping_throw
  refine keeping_inTransaction (keeping_commit
    (keeping_execute (writes_setStatus walletId change.status)) ?_)
  rintro - held c b books ⟨_, rfl, rfl⟩ -
  have alike : c.Alike (c.onWallets (·.modify walletId fun wallet =>
      { wallet with status := change.status })) := Db.alike_wallet change.status books.linked
  have same := congrArg (Db.onWallets (·.modify walletId fun wallet =>
    { wallet with status := change.status })) books.cleared_eq
  exact ⟨same ▸ alike.continues, same ▸ alike.books books⟩

/-! ## Payments -/

theorem FeesService.recorded_amount (fee : FeeQuote) (input : TransactionsService.NewTransaction) :
    (recorded fee input).amount = input.amount := by
  unfold recorded
  split_ifs <;> rfl

theorem FeesService.keeping_quoteCovered (operation : FeeOperation) (currency : String) (amount : Int)
    (organizationId : Option Uuid) :
    Keeping mode T F (quoteCovered operation currency amount organizationId) (fun _ => T) fun fee =>
      F.and (Fact.given (0 ≤ fee.amount)) := by
  refine (keeping_quote _ _ _ _).bind fun fee => ?_
  split_ifs
  · exact keeping_throw
  · exact keeping_pure fun _ _ _ known => known

theorem WalletsService.keeping_resolveCreditTarget (owner : Owner) (currency : String) :
    Keeping mode T F (resolveCreditTarget owner currency) (fun _ => T) fun target =>
      F.and (theWallet target.wallet.id target.wallet) := by
  refine (leads_queryCommitted (R := fun wallets => F.and (Fact.each (creditTarget wallets currency)
    fun target => theWallet target.wallet.id target.wallet)) fun held c _ known => ⟨known, ?_⟩).bind
    fun wallets => keeping_orThrow_each
  have mine : ∀ wallet ∈ c.wallets.rows.filter (·.owner = owner),
      (theWallet wallet.id wallet).holds held c :=
    fun wallet member => theWallet_of_mem (List.mem_filter.mp member).1
  unfold creditTarget
  cases exact : (c.wallets.rows.filter (·.owner = owner)).find? (·.currency = currency) with
  | some wallet => exact mine wallet (List.mem_of_find?_eq_some exact)
  | none =>
    cases primary : (c.wallets.rows.filter (·.owner = owner)).find? (·.isPrimary) with
    | some wallet => exact mine wallet (List.mem_of_find?_eq_some primary)
    | none => trivial

namespace PaymentsService

theorem keeping_view (payment : Payment) :
    Keeping .outside T F (view payment) (fun _ => T) fun answer => F.and (filedPayment answer.payment) := by
  refine (TransactionsService.keeping_getById _).bind fun transaction =>
    (keeping_each (K := filedPayment) fun _ _ found _ _ again => ?_).bind fun _ =>
    keeping_orFail_each.bind fun current => ?_
  · exact ⟨found, Table.find?_of_mem (Table.find?_some again).1, .refl found⟩
  dsimp only
  cases current.fxQuoteId with
  | some fxQuoteId =>
    exact (FxService.keeping_getQuote _ _).bind fun quote => keeping_stay.bind fun quote =>
      keeping_pure fun _ _ _ known => known
  | none => exact keeping_stay.bind fun quote => keeping_pure fun _ _ _ known => known

theorem keeping_setProviderReference (id : Uuid) (reference : String) :
    Keeping mode T F (setProviderReference id reference) (fun _ => T) fun _ => F := by
  refine keeping_alike fun c _ write books done => .inr ?_
  rw [same_of_databaseCheck done]
  exact ⟨writes_modifyPayment id (fun _ => rfl) fun _ => rfl,
    Db.alike_payment (fun _ => rfl) (fun _ => ⟨rfl, rfl, rfl, rfl, rfl⟩) (fun _ => ⟨rfl, rfl⟩) books.linked⟩

theorem keeping_reject (payment : Payment) (message : String) :
    Keeping .outside T (filedPayment payment) (reject payment message) (fun _ => T)
      fun _ => Fact.nothing := by
  refine keeping_inTransaction (keeping_commit
    ((TransactionsService.keeping_transition _ _ _).bind fun _ => keeping_stay) ?_)
  rintro - held c b books ⟨_, rfl, moved⟩ ⟨stored, found, transactionId, -⟩
  rw [← transactionId] at moved
  exact PaymentFailed.books books (.intro b.outbox (Table.find?_some found).1 moved)

theorem keeping_onProviderError (payment : Payment) (thrown : PaymentProviders.Thrown) :
    Keeping .outside T (filedPayment payment) (onProviderError payment thrown) (fun _ => T)
      fun _ => Fact.nothing := by
  unfold onProviderError
  split_ifs
  · exact keeping_reject _ _
  · exact keeping_throw

theorem keeping_ensureInitialized (outside : Outside) (payment : Payment) :
    Keeping .outside T (filedPayment payment) (ensureInitialized outside payment) (fun _ => T)
      fun _ => Fact.nothing := by
  refine (keeping_view _).bind fun before => ?_
  split_ifs
  · exact keeping_pure fun _ _ _ _ => trivial
  have rest : Keeping .outside T Fact.nothing (do
      let found ← Txn.queryCommitted fun db => db.payments.find? payment.id
      let again ← orFail "Payment" found
      view again) (fun _ => T) fun _ => Fact.nothing :=
    (keeping_queryCommitted.bind fun _ => keeping_orFail).bind fun again =>
      keeping_less (keeping_view again) fun _ _ _ _ => trivial
  cases outside.initializePayment payment before.transaction with
  | ok reference =>
    refine Leads.bind (R := fun _ => Fact.nothing) (U := fun _ => T) ?_ fun _ => rest
    exact leads_tryCatch (keeping_less (keeping_setProviderReference _ _) fun _ _ _ _ => trivial)
      fun _ => keeping_throw
  | error thrown =>
    refine Leads.bind (R := fun _ => Fact.nothing) (U := fun _ => T) ?_ fun _ => rest
    exact Leads.mono (fun _ _ _ known => known.1) (fun _ _ _ _ known => known)
      (keeping_onProviderError payment thrown)

theorem keeping_findByTransaction (transactionId : Uuid) :
    Keeping mode T F (findByTransaction transactionId) (fun _ => T) fun payment =>
      F.and (filedPayment payment) := by
  refine (keeping_each fun _ _ payment _ _ found => ?_).bind fun _ => keeping_orThrow_each
  exact ⟨payment, Table.find?_of_mem (List.mem_of_find?_eq_some found), .refl payment⟩

theorem keeping_createPending (generated : Generated) (owner : Owner) (wallet : Wallet)
    (providerName : String) (input : InitializePaymentInput) (quote : Option FxQuote) (fee : FeeQuote)
    (idempotencyKey : String) (nonneg : 0 ≤ fee.amount) :
    Keeping .inside Eq (F.and (WalletsService.theWallet wallet.id wallet))
      (createPending generated owner wallet providerName input quote fee idempotencyKey)
      (fun payment c b => KeepsBooks c b ∧ (filedPayment payment).holds [] b.cleared)
      fun _ => Fact.nothing := by
  refine (LimitsService.keeping_assertWithinLimitsWithin _).bind fun _ =>
    (TransactionsService.keeping_create _ _ _).bind fun row => keeping_query.bind fun now =>
    Leads.bind (keeping_save (writes_insertPayment _) (guarded_checkNewPayment _)) fun _ =>
    keeping_less (keeping_give ?_) fun _ _ _ _ => trivial
  rintro held c b books ⟨m, ⟨_, rfl, created⟩, filed⟩ ⟨⟨-, mine⟩, clock, is⟩
  obtain ⟨type, -, charged⟩ : row.type = .payment ∧ row.status = .pending ∧ row.feeAmount = fee.amount := by
    rw [is]
    exact FeesService.recorded_eq nonneg rfl
  have recorded : (newTransaction owner wallet input fee idempotencyKey).amount = input.amount :=
    FeesService.recorded_amount fee _
  have amount : input.amount = row.amount := by
    rw [is]
    exact recorded.symm
  have name : Colonless row.reference := by
    rw [is]
    exact TransactionsService.newTransaction_plain _ _ _ _
  obtain ⟨stored, there, own, -⟩ := WalletsService.theWallet_row mine
  have new : (newPayment (generated.fresh 1) row.id owner wallet providerName input quote now).New row :=
    ⟨rfl, amount, rfl, rfl⟩
  refine ⟨PaymentRequested.books books (.intro type (charged ▸ nonneg) name ⟨stored, there, own⟩ new created
    filed), _, ?_, .refl _⟩
  rw [filed.2]
  exact Table.find?_insert_self (Db.absent_of_checkNewPayment filed.1)

theorem keeping_recover (owner : Owner) (idempotencyKey : String) (error : Err) :
    Keeping .outside T F (recover owner idempotencyKey error) (fun _ => T) fun _ => Fact.nothing := by
  unfold recover
  split_ifs
  · refine keeping_queryCommitted.bind fun winner => ?_
    cases winner with
    | none => exact keeping_throw
    | some winner =>
      exact (keeping_findByTransaction _).bind fun payment =>
        keeping_less (keeping_view payment) fun _ _ _ _ => trivial
  · exact keeping_throw

theorem keeping_customerEmailFor (owner : Owner) (input : InitializePaymentInput) :
    Keeping mode T F (customerEmailFor owner input) (fun _ => T) fun _ => F := by
  unfold customerEmailFor
  cases input.customerEmail.filter (· ≠ "") with
  | some email => exact keeping_stay
  | none =>
    cases owner with
    | organization id => exact keeping_throw
    | user id => exact keeping_queryCommitted.bind fun _ => keeping_orThrow.bind fun user => keeping_stay

theorem keeping_quoteFor (generated : Generated) (outside : Outside) (owner : Owner)
    (target : WalletsService.CreditTarget) (input : InitializePaymentInput) :
    Keeping mode T F (quoteFor generated outside owner target input) (fun _ => T) fun _ => F := by
  unfold quoteFor
  split_ifs
  · exact (FxService.keeping_createQuote _ _ _ _ _ _).bind fun quote => keeping_stay
  · exact keeping_stay

theorem keeping_initializePayment (generated : Generated) (outside : Outside) (owner : Owner)
    (input : InitializePaymentInput) (idempotencyKey : String) :
    Keeping .outside T Fact.nothing (initializePayment generated outside owner input idempotencyKey)
      (fun _ => T) fun _ => Fact.nothing := by
  refine keeping_queryCommitted.bind fun existing => ?_
  cases existing with
  | some existing =>
    exact (keeping_findByTransaction _).bind fun payment =>
      Leads.mono (fun _ _ _ known => known.2) (fun _ _ _ _ known => known) (keeping_ensureInitialized _ _)
  | none =>
    refine keeping_ret.bind fun provider => (keeping_customerEmailFor _ _).bind fun _ =>
      (WalletsService.keeping_resolveCreditTarget _ _).bind fun target =>
      (keeping_quoteFor _ _ _ _ _).bind fun quote => (FeesService.keeping_quoteCovered _ _ _ _).bind fun fee =>
      Leads.bind (R := Sum.elim filedPayment fun _ => Fact.nothing) (U := fun _ => T) ?_ fun outcome => ?_
    · refine leads_tryCatch ((keeping_transaction ?_).bind fun payment =>
        keeping_pure fun _ _ _ known => known) fun error => (keeping_recover _ _ error).bind fun _ =>
        keeping_pure fun _ _ _ _ => trivial
      exact keeping_of_given (keeping_createPending _ _ _ _ _ _ _ _)
    · cases outcome with
      | inl payment => exact keeping_ensureInitialized _ _
      | inr winner => exact keeping_stay

end PaymentsService

end Services

end Finstack
