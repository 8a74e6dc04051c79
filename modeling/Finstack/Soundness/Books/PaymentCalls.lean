import Finstack.Soundness.Books.Conversions

/-! # Calls that settle payments

How a payment is credited or fails, and how its settlement hold ends, from what is read to what is
committed.
-/

namespace Finstack

open Foundation Discipline LedgerService

namespace Services

variable {mode : Mode} {T : Db → Db → Prop} {F : Knowing} {held : List RowLock} {c : Db}

/-- A time that has come. -/
def past (time : Nat) : Knowing :=
  .ofStable (time ≤ ·.clock) fun _ change before => before.trans change.1.clock

namespace SettlementReleaseService

theorem keeping_release (id paymentId : Uuid) (early : Bool) :
    Keeping .outside T F (release id paymentId early) (fun _ => T) fun _ => Fact.nothing := by
  refine keeping_inTransaction ((PaymentsService.keeping_lockWithin _).bind fun payment => ?_)
  split_ifs with none
  · exact keeping_idle
  refine (WalletsService.keeping_makeAvailableWithin _ _ ?_).bind fun _ =>
    (leads_query (R := fun now => (F.and (PaymentsService.thePayment paymentId payment)).and (past now))
      ?_).bind fun now => ?_
  · rintro held c m books ⟨-, ⟨-, found⟩, -⟩ rfl
    have unused := books.settlement_unused (Table.find?_some found).1 none
    rw [Db.Settled, ← Purpose.text_eq] at unused
    exact unused
  · rintro held c b books ⟨_, rfl, wallet, member, -, input, currency, description, posted, total, -, posts⟩ known
    refine ⟨known, ?_⟩
    rw [posts.result]
    exact Nat.le_refl _
  dsimp only
  refine Leads.bind (PaymentsService.keeping_update _ (fun _ => rfl) fun _ => rfl) fun _ =>
    keeping_commit ((OutboxService.keeping_add _).bind fun _ => keeping_stay) ?_
  rintro - held c b books ⟨m₂, ⟨m₁, ⟨_, rfl, wallet, member, walletId, released⟩, ended⟩, rfl⟩
    ⟨⟨-, ⟨-, found⟩, own⟩, come⟩
  have name : (settlementMovement payment).reference = postingReference .settlement (uuidText payment.id) :=
    Purpose.text_eq .settlement _
  rw [name] at released
  refine HoldReleased.books books (.intro found none member walletId ?_ released ended)
  have reached : now ≤ c.clock := come
  split
  · split_ifs <;> omega
  · exact reached

end SettlementReleaseService

namespace PaymentSettlementService

/-- A payment and its transaction's row, which nobody else changes. -/
def theSettled (payment : Payment) (row : Transaction) : Knowing :=
  (filedPayment payment).and (TransactionsService.theTransaction payment.transactionId row)

theorem keeping_fail (payment : Payment) (failureCode failureReason : String) :
    Keeping .outside T (filedPayment payment) (fail payment failureCode failureReason) (fun _ => T)
      fun _ => Fact.nothing := by
  refine keeping_inTransaction ((TransactionsService.keeping_lockWithin _).bind fun row => ?_)
  by_cases settled : ¬ OPEN_STATUSES.contains row.status
  · rw [if_pos settled]
    exact keeping_idle
  rw [if_neg settled]
  refine (TransactionsService.keeping_transition _ _ _).bind fun _ =>
    keeping_commit ((OutboxService.keeping_add _).bind fun _ => keeping_stay) ?_
  rintro - held c b books ⟨m, ⟨_, rfl, moved⟩, rfl⟩ ⟨⟨stored, found, transactionId, -⟩, -, own⟩
  rw [own, ← transactionId] at moved
  exact PaymentFailed.books books (.intro _ (Table.find?_some found).1 moved)

/-! ### The credit -/

/-- Whatever is posted for the credit of a payment that is still open is posted first now. -/
theorem credit_unused (books : c.Books) {payment : Payment} {row : Transaction}
    (mine : (theSettled payment row).holds held c) (unsettled : row.status = .pending ∨ row.status = .processing)
    (purpose : Purpose) (credits : purpose ∈ [Purpose.payment, .paymentSource, .paymentTarget, .paymentFee]) :
    ¬ c.Uses (purpose.text row.reference) := by
  obtain ⟨-, ⟨-, found⟩, -⟩ := mine
  rw [Purpose.text_eq]
  exact books.payment_unused (Table.find?_some found).1 unsettled credits

/-- No quote has converted it. -/
theorem unconverted (books : c.Books) {payment : Payment} {row : Transaction}
    (mine : (theSettled payment row).holds held c) (unsettled : row.status = .pending ∨ row.status = .processing)
    (quote : FxQuote) (there : quote ∈ c.fxQuotes) :
    quote.conversionReference ≠ some (Purpose.payment.text row.reference) := by
  intro consumed
  obtain ⟨-, ⟨-, found⟩, -⟩ := mine
  have listed := (Table.find?_some found).1
  have plain := books.linked.transactionNames.plain row listed
  obtain ⟨name, plain', same, other, here, named, -, settled⟩ := books.consumed quote there _ consumed
  rw [Purpose.text_eq] at same
  obtain ⟨-, rfl⟩ := postingReference_inj plain plain' same
  obtain rfl := books.linked.transactionNames.unique other here row listed named
  rcases unsettled with status | status <;> simp [status] at settled

/-- The payment may have a new quote. -/
def Requoted (payment : Payment) (c b : Db) : Prop :=
  (∃ quoteId, PaymentChanged payment.id (fun row => { row with fxQuoteId := quoteId }) c b) ∨ b = c

theorem keeping_usableQuoteId (id : Uuid) (requote : Except Err FxService.Offer) (payment : Payment)
    (fxQuoteId : Uuid) :
    Keeping .inside Eq F (usableQuoteId id requote payment fxQuoteId) (fun _ => Requoted payment)
      fun _ => F := by
  refine (FxService.keeping_getQuoteWithin _).bind fun quote => keeping_query.bind fun now => ?_
  split_ifs
  · exact keeping_give fun _ _ _ _ same _ => .inr same.symm
  refine (FxService.keeping_createQuote _ _ _ _ _ _).bind fun fresh =>
    Leads.bind (PaymentsService.keeping_update _ (fun _ => rfl) fun _ => rfl) fun _ =>
    (TransactionsService.keeping_mergeMetadataWithin _).bind fun _ => keeping_give ?_
  rintro held c b - ⟨_, rfl, changed⟩ -
  exact .inl ⟨_, changed⟩

theorem keeping_prepareConversionDeposit (id walletId quoteId : Uuid) :
    Keeping mode T F (WalletsService.prepareConversionDeposit id walletId quoteId) (fun _ => T)
      fun prepared => (F.and (WalletsService.theWallet walletId prepared.1)).and
        (platform prepared.2.id) := by
  refine (WalletsService.keeping_getWallet _).bind fun wallet => (FxService.keeping_getQuote _ _).bind
    fun quote => ?_
  split_ifs
  · exact keeping_throw
  · exact (keeping_ensureSystemAccount _ _).bind fun clearing => keeping_pure fun _ _ _ known => known

/-- What is credited, and what has been done for it. -/
def CreditedTo (payment : Payment) (row : Transaction) (into : WalletBalance) (amount : Int)
    (c b : Db) : Prop :=
  ∃ m, Requoted payment c m ∧ ∃ wallet ∈ c.wallets, wallet.id = payment.walletId ∧
    Credited c wallet into amount row.reference m b

/-- Only the payment has changed before the conversion. -/
theorem Requoted.others {payment : Payment} {c m : Db} (requoted : Requoted payment c m) :
    m.fxQuotes = c.fxQuotes ∧ m.ledger = c.ledger := by
  rcases requoted with ⟨quoteId, changed⟩ | rfl
  · rw [changed.2]
    exact ⟨rfl, rfl⟩
  · exact ⟨rfl, rfl⟩

theorem keeping_depositWithConversion (fresh : Fresh) (payment : Payment) (row : Transaction)
    (into : WalletBalance) (quoteId : Uuid) (description : String)
    (unsettled : row.status = .pending ∨ row.status = .processing) :
    Keeping .inside (Requoted payment) (theSettled payment row)
      (WalletsService.depositWithConversionWithin fresh payment.walletId
        ⟨quoteId, Purpose.payment.text row.reference, description⟩ into)
      (fun result => CreditedTo payment row into result.quote.targetAmount)
      fun _ => theSettled payment row := by
  refine (keeping_prepareConversionDeposit _ _ _).bind fun ⟨wallet, clearing⟩ => keeping_less
    (keeping_conclude (FxService.keeping_convertWithin _ _ _ (WalletsService.keeping_lockActiveWallets _)
      ?_ ?_ ?_ ?_) ?_) fun _ _ _ known => known.1.1
  · exact fun _ _ _ _ _ requoted => requoted.others.1
  · exact fun held c books known => unconverted books known.1.1 unsettled
  · exact fun _ _ _ known => known.2
  · rintro held c m books ⟨⟨settled, -⟩, -⟩ requoted
    have plain := books.linked.transactionNames.plain row (Table.find?_some settled.2.1.2).1
    have same : m.Uses = c.Uses := by
      funext reference
      rw [Db.Uses, requoted.others.2]
      rfl
    rw [same]
    exact ⟨credit_unused books settled unsettled .paymentSource (by simp),
      credit_unused books settled unsettled .paymentTarget (by simp),
      Purpose.text_ne .paymentSource .paymentTarget plain (by simp)⟩
  rintro result held c b books ⟨m, requoted, converted⟩ ⟨⟨settled, mine⟩, -⟩
  obtain ⟨stored, member, own, -, accounts⟩ := WalletsService.theWallet_row mine
  refine ⟨m, requoted, stored, member, own, ?_⟩
  obtain ⟨sourceReference, sourceEntries, posts, targetReference, targetEntries, coded, others, posts', keeps,
    consumes⟩ := converted
  have account : balanceAccount stored into = balanceAccount wallet into := accounts into
  refine .converted (sourceReference.trans (Purpose.text_eq .paymentSource _)) sourceEntries posts
    (targetReference.trans (Purpose.text_eq .paymentTarget _)) (by rw [targetEntries, account]; rfl) coded
    others posts' keeps fun quote => ?_
  rw [consumes, ← Purpose.text_eq]
  rfl

theorem keeping_creditWallet (fresh : Fresh) (setting : Setting) (payment : Payment) (row : Transaction)
    (into : WalletBalance) (unsettled : row.status = .pending ∨ row.status = .processing) :
    Keeping .inside Eq (theSettled payment row) (creditWallet fresh setting payment row into)
      (fun credited => CreditedTo payment row into credited.2.amount) fun _ => theSettled payment row := by
  unfold creditWallet
  cases payment.fxQuoteId with
  | none =>
    refine Leads.bind (WalletsService.keeping_depositWithin _ _ _ ?_) fun posted => keeping_give ?_
    · rintro held c m books known rfl
      exact credit_unused books known unsettled .payment (by simp)
    · rintro held c b books ⟨_, rfl, wallet, member, own, paid⟩ -
      refine ⟨c, .inr rfl, wallet, member, own, .deposited ?_⟩
      rw [← Purpose.text_eq]
      exact paid
  | some fxQuoteId =>
    refine Leads.bind (keeping_usableQuoteId _ _ _ _) fun quoteId => Leads.bind
      (U := fun result => CreditedTo payment row into result.quote.targetAmount)
      (R := fun _ => theSettled payment row) ?_ fun conversion => keeping_give fun _ _ _ _ done _ => done
    exact keeping_depositWithConversion _ _ _ _ _ _ unsettled

theorem keeping_collectFee (fresh : Fresh) (payment : Payment) (row : Transaction) (fee : Int)
    (into : WalletBalance) (unused : ∀ held c m, c.Books → F.holds held c → T c m →
      ¬ m.Uses (Purpose.paymentFee.text row.reference)) :
    Keeping .inside T F (collectFee fresh payment row fee into)
      (fun _ c b => 0 < fee ∧ WalletsService.Did T payment.walletId (fun c wallet =>
          Drawn c wallet into fee (Purpose.paymentFee.text row.reference)) c b ∨ ¬ 0 < fee ∧ T c b)
      fun _ => F :=
  keeping_when fun _ => WalletsService.keeping_collectFeeWithin _ _ _ unused

/-- The fee is the one posting left. -/
theorem fee_unused (books : c.Books) {payment : Payment} {row : Transaction} {into : WalletBalance}
    {amount : Int} {m : Db} (settled : (theSettled payment row).holds held c)
    (unsettled : row.status = .pending ∨ row.status = .processing)
    (credited : CreditedTo payment row into amount c m) :
    ¬ m.Uses (Purpose.paymentFee.text row.reference) := by
  have plain := books.linked.transactionNames.plain row (Table.find?_some settled.2.1.2).1
  intro uses
  obtain ⟨m₁, requoted, wallet, -, -, credited⟩ := credited
  rcases credited.uses uses with before | ⟨purpose, listed, same⟩
  · have same : m₁.Uses = c.Uses := by
      funext reference
      rw [Db.Uses, requoted.others.2]
      rfl
    rw [same] at before
    exact credit_unused books settled unsettled .paymentFee (by simp) before
  · rw [Purpose.text_eq] at same
    obtain ⟨rfl, -⟩ := postingReference_inj plain plain same
    simp at listed

theorem keeping_creditOpen (fresh : Fresh) (setting : Setting) (payment : Payment) (row : Transaction)
    (unsettled : row.status = .pending ∨ row.status = .processing) :
    Keeping .inside Eq (theSettled payment row) (creditOpen fresh setting payment row)
      (fun _ => KeepsBooks) fun _ => Fact.nothing := by
  unfold creditOpen
  generalize into : (if setting.holdMs > 0 then WalletBalance.pending else .available) = balance
  refine keeping_query.bind fun now => Leads.bind (keeping_creditWallet _ _ _ _ _ unsettled)
    fun ⟨ledgerTransactionId, credited⟩ => keeping_query.bind fun completedAt =>
    (TransactionsService.keeping_transition _ _ _).bind fun _ =>
    (keeping_collectFee _ _ _ _ _ ?_).bind fun _ =>
    Leads.bind (PaymentsService.keeping_update _ (fun _ => rfl) fun _ => rfl) fun _ =>
    keeping_commit ((OutboxService.keeping_add _).bind fun _ => keeping_stay) ?_
  · rintro held c m books settled ⟨m₂, done, moved⟩ uses
    have same : m.Uses = m₂.Uses := by
      funext reference
      rw [Db.Uses, moved.2]
      rfl
    rw [same] at uses
    exact fee_unused books settled unsettled done uses
  rintro - held c b books ⟨m₅, ⟨m₄, charged, held⟩, rfl⟩ ⟨⟨stored, found, same⟩, ⟨⟨-, bought⟩, own⟩⟩
  obtain ⟨transactionId, -, walletId, -⟩ := same
  have key : stored.id = payment.id := (Table.find?_some found).2
  obtain ⟨m₃, ⟨m₂, ⟨m₁, requoted, wallet, member, its, credit⟩, moved⟩, charged⟩ : ∃ m₃,
      (∃ m₂, CreditedTo payment row balance credited.amount c m₂ ∧ Transitioned row.id .successful _ m₂ m₃) ∧
      (0 < feeOf row credited ∧ (∃ wallet ∈ c.wallets, wallet.id = payment.walletId ∧ Drawn c wallet balance
          (feeOf row credited) (Purpose.paymentFee.text row.reference) m₃ m₄) ∨
        ¬ 0 < feeOf row credited ∧ m₄ = m₃) := by
    rcases charged with ⟨some, m₃, done, drawn⟩ | ⟨none, done⟩
    · exact ⟨m₃, done, .inl ⟨some, drawn⟩⟩
    · exact ⟨m₄, done, .inr ⟨none, rfl⟩⟩
  have kept : balance ≠ .reserved := by
    rw [← into]
    split_ifs <;> simp
  have rest : (if setting.holdMs > 0 then credited.amount - feeOf row credited else 0) =
      if balance = .pending then credited.amount - feeOf row credited else 0 := by
    rw [← into]
    by_cases holding : setting.holdMs > 0 <;> simp [holding]
  rw [rest, ← key] at held
  rw [own, ← transactionId] at moved
  rw [own, ← transactionId] at bought
  refine PaymentCredited.books books (.intro (key ▸ found) bought unsettled member (its.trans walletId.symm) ?_
    credit kept moved rfl ?_ held)
  · rw [key]
    exact requoted
  · rcases charged with ⟨positive, wallet', member', its', drawn⟩ | none
    swap
    · exact .inr none
    refine .inl ⟨positive, ?_⟩
    obtain rfl := Table.eq_of_key member' member (its'.trans its.symm)
    rw [← Purpose.text_eq]
    exact drawn

theorem keeping_credit (fresh : Fresh) (setting : Setting) (payment : Payment) :
    Keeping .outside T (filedPayment payment) (credit fresh setting payment) (fun _ => T)
      fun _ => Fact.nothing := by
  refine keeping_inTransaction ((TransactionsService.keeping_lockWithin _).bind fun row => ?_)
  by_cases successful : row.status = .successful
  · rw [if_pos successful]
    exact keeping_idle
  rw [if_neg successful]
  by_cases settled : ¬ OPEN_STATUSES.contains row.status
  · rw [if_pos settled]
    exact keeping_idle
  rw [if_neg settled]
  have unsettled : row.status ∈ OPEN_STATUSES := by simpa using settled
  exact keeping_creditOpen _ _ _ _ (List.mem_pair.mp unsettled)

end PaymentSettlementService

end Services

end Finstack
