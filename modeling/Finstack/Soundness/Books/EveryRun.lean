import Finstack.Model.Services.Platform
import Finstack.Soundness.Books.SubmissionCalls
import Finstack.Soundness.Books.TransferCalls

/-! # The books over every run

Whatever the customers, the staff, the providers and the workers do, in any interleaving, with crashes and
clock ticks: the books are kept by every commit.
-/

namespace Finstack

open Foundation Discipline

/-! ## A new platform -/

/-- There is no money yet: no wallet, no record and nothing in the ledger. -/
structure Db.New (db : Db) : Prop where
  ledger : db.ledger = .empty
  wallets : db.wallets = .empty
  transactions : db.transactions = .empty
  payments : db.payments = .empty
  refunds : db.refunds = .empty
  payouts : db.payouts = .empty
  fxQuotes : db.fxQuotes = .empty
  feeRules : ∀ rule ∈ db.feeRules, rule.Checked

section Empty

variable {R : Type} [Keyed R Uuid]

theorem files_empty (db : Db) (transactionId : R → Uuid) (type : TransactionType) :
    Files db (.empty : Table R) transactionId type :=
  ⟨fun _ member => absurd member List.not_mem_nil, fun _ member => absurd member List.not_mem_nil⟩

theorem named_empty (name : R → String) : Named (.empty : Table R) name :=
  ⟨fun _ member => absurd member List.not_mem_nil, fun _ member => absurd member List.not_mem_nil⟩

end Empty

theorem Db.New.books {db : Db} (new : db.New) : db.Books := by
  have none : ∀ {R : Type} [Keyed R Uuid] {row : R} {P : Prop}, row ∈ (.empty : Table R) → P :=
    fun member => absurd member List.not_mem_nil
  obtain ⟨ledger, wallets, transactions, payments, refunds, payouts, fxQuotes, feeRules⟩ := new
  constructor
  · constructor <;> simp only [transactions, payments, refunds, payouts]
    · exact files_empty _ _ _
    · exact files_empty _ _ _
    · exact files_empty _ _ _
    · exact named_empty _
    · exact named_empty _
    · exact named_empty _
    all_goals exact fun _ member => none member
  · rw [wallets]
    exact ⟨fun _ member => none member, fun _ member => none member⟩
  · refine ⟨?_, ?_, ?_, ?_⟩ <;> rw [ledger]
    · exact ⟨fun _ member => none member, fun _ member => none member⟩
    · exact fun _ member => absurd member List.not_mem_nil
    · rfl
    · exact fun _ member => none member
  · constructor <;> rw [wallets] <;> exact fun _ member => none member
  · intro payment member
    rw [payments] at member
    exact none member
  · intro payment member
    rw [payments] at member
    exact none member
  · intro quote member
    rw [fxQuotes] at member
    exact none member
  · exact feeRules

namespace Services

/-! ## Every call -/

theorem keeping_unanswered {α : Type} {T : Db → Db → Prop} {call : DbTxn α}
    (keeping : Keeping .outside T Fact.nothing call (fun _ => T) fun _ => Fact.nothing) :
    Keeping .outside T Fact.nothing (unanswered call) (fun _ => T) fun _ => Fact.nothing :=
  keeping.bind fun _ => keeping_stay

theorem PlatformCall.keeping {T : Db → Db → Prop} (call : PlatformCall) :
    Keeping .outside T Fact.nothing call.run (fun _ => T) fun _ => Fact.nothing := by
  cases call with
  | openWallet => exact keeping_unanswered (WalletsService.keeping_insertWallet _ _ _ _)
  | setWalletStatus => exact AdminService.keeping_setWalletStatus _ _
  | transfer => exact keeping_unanswered (TransfersService.keeping_transfer _ _ _ _)
  | initializePayment => exact keeping_unanswered (PaymentsService.keeping_initializePayment _ _ _ _ _)
  | verifyPayment => exact keeping_unanswered (PaymentSettlementService.keeping_verify _ _ _ _ _)
  | paymentWebhook =>
    exact keeping_unanswered (PaymentSettlementService.keeping_settleFromWebhook _ _ _ _ _)
  | releaseDue => exact SettlementReleaseService.keeping_releaseDue _ _
  | releaseEarly => exact keeping_unanswered (SettlementReleaseService.keeping_releaseEarly _ _)
  | requestPayout => exact keeping_unanswered (PayoutsService.keeping_requestSubmitted _ _ _ _ _)
  | syncPayout => exact keeping_unanswered (PayoutsService.keeping_sync _ _ _)
  | payoutWebhook => exact keeping_unanswered (PayoutsService.keeping_syncFromWebhook _ _ _ _)
  | syncStalePayouts => exact PayoutsService.keeping_syncStale _ _ _ _
  | requestRefund => exact keeping_unanswered (RefundsService.keeping_requestSubmitted _ _ _ _ _ _)
  | retryRefund => exact keeping_unanswered (RefundsService.keeping_retry _ _ _)
  | refundWebhook => exact keeping_unanswered (RefundsService.keeping_syncFromWebhook _ _ _ _)
  | syncStaleRefunds => exact RefundsService.keeping_syncStale _ _ _ _

/-! ## Every run -/

/-- Time passes. -/
theorem change_of_tick {c c' : Db} (books : c.Books) (tick : Db.Tick c c') :
    c.Continues c' ∧ c'.Books := by
  obtain ⟨clock, later, rfl⟩ := tick
  have progress : c.Progress { c with clock } := { Db.Progress.refl c with clock := later }
  refine ⟨{ progress with
      successes := Db.successes_of fun refund member now => ⟨member, now⟩
      released := fun _ used => .inl used }, ?_⟩
  have linked : ({ c with clock } : Db).Linked := books.linked.congr rfl rfl rfl rfl rfl
  refine ⟨linked, books.accounts, ⟨books.journal.indexed, books.journal.entries, books.journal.settled,
    fun posting member => ?_⟩, ⟨books.balances.pending, books.balances.reserved⟩, books.reversed,
    books.uncredited, fun quote member reference converted => ?_, books.fees⟩
  · obtain ⟨purpose, name, plain, reference, done⟩ := books.journal.attributed posting member
    exact ⟨purpose, name, plain, reference, done.progress progress linked fun _ payment there _ =>
      ⟨payment, there, rfl, rfl, rfl⟩⟩
  · obtain ⟨name, plain, same, done⟩ := books.consumed quote member reference converted
    exact ⟨name, plain, same, done.progress progress linked fun other => by cases other⟩

section EveryRun

variable {ι : Type} [DecidableEq ι] {db : Db} {calls : ι → PlatformCall}
  {σ σ' : Config Db RowLock ι (Except Err Unit)}

/-- What everybody relies on, and what every client guarantees. -/
abbrev BooksKept (σ : Config Db RowLock ι (Except Err Unit)) : Prop :=
  Config.Sound (fun _ => booksDiscipline) (fun _ => Db.Continues) (fun _ _ _ _ _ => True) σ

omit [DecidableEq ι] in
theorem compatible_books : Config.Compatible (fun _ : Option ι => booksDiscipline)
    (fun _ => Db.Continues) fun _ (_ : Except Err Unit) _ _ _ => True :=
  ⟨fun _ _ _ _ _ _ inv' continues => ⟨continues, inv'⟩, fun _ _ _ _ _ _ _ _ => trivial⟩

omit [DecidableEq ι] in
theorem respects_tick : Config.Respects (fun _ : Option ι => booksDiscipline) Db.Tick := by
  intro c c' inv tick
  refine ⟨fun j => change_of_tick (inv j) tick, fun l => ?_⟩
  obtain ⟨clock, _, rfl⟩ := tick
  cases l <;> rfl

omit [DecidableEq ι] in
theorem booksKept_start (books : db.Books) : BooksKept (Config.start db fun i => (calls i).run) :=
  .start (fun _ => books) fun i => ((calls i).keeping (T := Eq)).safe books trivial

theorem booksKept_of_run (new : db.New)
    (run : Config.Reaches Db.Tick (Config.start db fun i => (calls i).run) σ) : BooksKept σ :=
  (booksKept_start new.books).reaches compatible_books respects_tick run

theorem books_of_run (new : db.New)
    (run : Config.Reaches Db.Tick (Config.start db fun i => (calls i).run) σ) : σ.committed.Books :=
  (booksKept_of_run new run).inv none

/-- What a client's statement or the clock does to the database. -/
theorem progress_of_moves (sound : BooksKept σ) (moves : Config.Moves Db.Tick σ σ') :
    σ.committed.Progress σ'.committed := by
  rcases moves with ⟨i, step⟩ | crash | outside
  · rcases sound.committed_step step with same | continues
    · rw [same]
      exact .refl _
    · exact continues.toProgress
  · obtain ⟨i⟩ := crash
    exact .refl _
  · obtain ⟨tick⟩ := outside
    exact (change_of_tick (sound.inv none) tick).1.toProgress

theorem progress_of_run (sound : BooksKept σ) (later : Config.Reaches Db.Tick σ σ') :
    σ.committed.Progress σ'.committed := by
  induction later with
  | refl => exact .refl _
  | tail before moves ih =>
    exact ih.trans (progress_of_moves (sound.reaches compatible_books respects_tick before) moves)

end EveryRun

/-! ## A payment that is refunded in two parts -/

def freshFrom (first : Nat) : Fresh := fun n => Fin.ofNat _ (first + n)

def noOffer : Except Err FxService.Offer := .error (.app ⟨"NO_RATE", "No rate", 503⟩)

/-- The bank accepts every checkout, and whatever it is asked for has succeeded. -/
def bank : ProviderClient where
  verifyPayment _ _ := .ok ⟨.successful, 500, "NGN", none⟩
  refundPayment _ _ reference := .ok ⟨reference, .successful⟩
  getRefund reference := .ok ⟨reference, .successful⟩
  findRefund _ _ := .ok none

def onlyBank : Providers where
  get _ := .ok bank
  payoutsOf _ := .error (.app ⟨"UNKNOWN_PAYMENT_PROVIDER", "No payouts", 422⟩)

def checkout : PaymentsService.Outside where
  routing := ⟨[⟨"bank", ["NGN"]⟩], [], [], "bank"⟩
  offer _ _ _ := noOffer
  initializePayment _ _ := .ok "checkout"

def newPlatform : Db where
  __ := Db.empty
  users := [⟨1, "ada@example.com"⟩]

theorem newPlatform_new : newPlatform.New :=
  ⟨rfl, rfl, rfl, rfl, rfl, rfl, rfl, fun _ member => absurd member List.not_mem_nil⟩

/-- A wallet is opened and a payment of 500 into it settles with a hold of a minute; 40 of it are
refunded, the hold ends early, and the rest is refunded. -/
def refundCalls : Fin 6 → PlatformCall
  | 0 => .openWallet (freshFrom 10) (.user 1) "NGN" none
  | 1 => .initializePayment ⟨freshFrom 20, 7⟩ checkout (.user 1) { amount := 500, currency := "NGN" }
      "first"
  | 2 => .paymentWebhook (freshFrom 30) ⟨60000, noOffer⟩ onlyBank "bank" "checkout"
  | 3 => .requestRefund ⟨freshFrom 50, 8, 9⟩ onlyBank 3 21 ⟨some 40, "goodwill"⟩ "part"
  | 4 => .releaseEarly 70 21
  | 5 => .requestRefund ⟨freshFrom 80, 10, 11⟩ onlyBank 3 21 ⟨none, "goodwill"⟩ "rest"

/-- The first refund is on hold; later the whole payment is refunded. -/
theorem refund_run : ∃ σ σ',
    Config.Reaches Db.Tick (Config.start newPlatform fun i => (refundCalls i).run) σ ∧
      Config.Reaches Db.Tick σ σ' ∧
      (σ.committed.pendingOf 13 = 460 ∧ σ.committed.heldOf 13 = 40 ∧
        σ.committed.ledger.transactions.rows ≠ []) ∧
      ∃ payment ∈ σ'.committed.payments, σ'.committed.Settled payment.id ∧
        RefundsService.totalOf [.successful] payment.id σ'.committed = payment.amount := by
  have ends : (((Config.start newPlatform fun i => (refundCalls i).run).schedule
      (List.replicate 7 0 ++ List.replicate 17 1 ++ List.replicate 21 2 ++ List.replicate 20 3)).bind
        fun σ => (σ.schedule
          (List.replicate 24 3 ++ List.replicate 13 4 ++ List.replicate 46 5)).map fun σ' =>
            decide ((σ.committed.pendingOf 13 = 460 ∧ σ.committed.heldOf 13 = 40 ∧
                σ.committed.ledger.transactions.rows ≠ []) ∧
              ∃ payment ∈ σ'.committed.payments.rows,
                (∃ posting ∈ σ'.committed.ledger.transactions.rows,
                  posting.reference = postingReference .settlement (uuidText payment.id)) ∧
                RefundsService.totalOf [.successful] payment.id σ'.committed = payment.amount)) =
        some true := by
    decide +kernel
  obtain ⟨σ, first, rest⟩ := Option.bind_eq_some_iff.mp ends
  obtain ⟨σ', second, facts⟩ := Option.map_eq_some_iff.mp rest
  obtain ⟨held, payment, member, ended, full⟩ := of_decide_eq_true facts
  exact ⟨σ, σ', (Config.schedule_sound first).reaches, (Config.schedule_sound second).reaches, held,
    payment, member, ended, full⟩

/-! ## What holds in every run -/

section Results

variable {ι : Type} [DecidableEq ι] {db : Db} {calls : ι → PlatformCall}
  {σ σ' : Config Db RowLock ι (Except Err Unit)}

/-- In every interleaving of any calls, with crashes, the pending balance of a wallet is what its payments
have in their settlement holds, and the reserved balance what its refunds and payouts hold. -/
theorem balances_in_every_run (new : db.New)
    (run : Config.Reaches Db.Tick (Config.start db fun i => (calls i).run) σ) :
    ∀ wallet ∈ σ.committed.wallets,
      cachedBalance σ.committed.ledger.accounts wallet.pendingAccountId =
          σ.committed.pendingOf wallet.id ∧
        cachedBalance σ.committed.ledger.accounts wallet.reservedAccountId =
          σ.committed.heldOf wallet.id :=
  fun wallet member => ⟨(books_of_run new run).balances.pending wallet member,
    (books_of_run new run).balances.reserved wallet member⟩

theorem balances_of_refund : ∃ σ,
    Config.Reaches Db.Tick (Config.start newPlatform fun i => (refundCalls i).run) σ ∧
      σ.committed.pendingOf 13 = 460 ∧ σ.committed.heldOf 13 = 40 ∧
      ∀ wallet ∈ σ.committed.wallets,
        cachedBalance σ.committed.ledger.accounts wallet.pendingAccountId =
            σ.committed.pendingOf wallet.id ∧
          cachedBalance σ.committed.ledger.accounts wallet.reservedAccountId =
            σ.committed.heldOf wallet.id := by
  obtain ⟨σ, -, run, -, ⟨pending, held, -⟩, -⟩ := refund_run
  exact ⟨σ, run, pending, held, balances_in_every_run newPlatform_new run⟩

/-- What is fully refunded is reversed, whichever of its refunds commits last. -/
theorem reversed_in_every_run (new : db.New)
    (run : Config.Reaches Db.Tick (Config.start db fun i => (calls i).run) σ) :
    ∀ payment ∈ σ.committed.payments,
      RefundsService.totalOf [.successful] payment.id σ.committed = payment.amount →
        σ.committed.statusOf payment.transactionId = some .reversed :=
  (books_of_run new run).reversed

theorem reversed_of_refund : ∃ σ,
    Config.Reaches Db.Tick (Config.start newPlatform fun i => (refundCalls i).run) σ ∧
      ∃ payment ∈ σ.committed.payments,
        RefundsService.totalOf [.successful] payment.id σ.committed = payment.amount ∧
          σ.committed.statusOf payment.transactionId = some .reversed := by
  obtain ⟨σ, σ', run, later, -, payment, member, -, full⟩ := refund_run
  exact ⟨σ', run.trans later, payment, member, full,
    reversed_in_every_run newPlatform_new (run.trans later) payment member full⟩

/-- Once the settlement hold of a payment has ended, nothing of the payment is ever held again. -/
theorem released_in_every_run (new : db.New)
    (run : Config.Reaches Db.Tick (Config.start db fun i => (calls i).run) σ)
    (later : Config.Reaches Db.Tick σ σ') {payment : Payment} (ended : σ.committed.Settled payment.id)
    (stored : payment ∈ σ'.committed.payments) : payment.pendingAmount = 0 ∧
      ∃ time, payment.fundsAvailableAt = some time ∧ time ≤ σ'.committed.clock := by
  obtain ⟨posting, member, reference⟩ := ended
  have kept := (progress_of_run (booksKept_of_run new run) later).postings (Table.find?_of_mem member)
  have still : σ'.committed.Settled payment.id := ⟨posting, (Table.find?_some kept).1, reference⟩
  obtain ⟨other, there, own, nothing, available⟩ :=
    (books_of_run new (run.trans later)).journal.done (colonless_uuidText _) still
  obtain rfl := Table.eq_of_key there stored (uuidText_injective own)
  exact ⟨nothing, available⟩

theorem released_of_refund : ∃ σ,
    Config.Reaches Db.Tick (Config.start newPlatform fun i => (refundCalls i).run) σ ∧
      ∃ payment ∈ σ.committed.payments, σ.committed.Settled payment.id ∧ payment.pendingAmount = 0 ∧
        ∃ time, payment.fundsAvailableAt = some time ∧ time ≤ σ.committed.clock := by
  obtain ⟨σ, σ', run, later, -, payment, member, ended, -⟩ := refund_run
  exact ⟨σ', run.trans later, payment, member, ended,
    released_in_every_run newPlatform_new (run.trans later) .refl ended member⟩

end Results

end Services

end Finstack
