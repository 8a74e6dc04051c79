import Finstack.Soundness.Books.Statements

/-! # Methods that keep the books

What the methods that every service uses add to what a transaction has done, and when the reference of
a posting is still unused.
-/

namespace Finstack

open Foundation Discipline LedgerService Services

variable {c m b : Db}

/-! ## References that movements use -/

section Uses

variable {wallet : Wallet} {balance source target : WalletBalance} {amount : Int}
  {reference used : String}

theorem Drawn.uses (drawn : Drawn c wallet balance amount reference m b) (uses : b.Uses used) :
    m.Uses used ∨ reference = used := by
  obtain ⟨input, currency, description, other, id, total, rfl, -, posts⟩ := drawn
  exact (Db.uses_posted posts).mp uses

theorem Paid.uses (paid : Paid c wallet balance amount reference m b) (uses : b.Uses used) :
    m.Uses used ∨ reference = used := by
  obtain ⟨input, currency, description, other, id, total, rfl, -, posts⟩ := paid
  exact (Db.uses_posted posts).mp uses

theorem Credited.uses {into : WalletBalance} {name : String}
    (credited : Credited c wallet into amount name m b) (uses : b.Uses used) :
    m.Uses used ∨ ∃ purpose ∈ [Purpose.payment, .paymentSource, .paymentTarget],
      postingReference purpose name = used := by
  cases credited with
  | deposited paid => exact (paid.uses uses).imp_right fun same => ⟨.payment, by simp, same⟩
  | converted sourceReference _ posts targetReference _ _ _ posts' _ _ =>
    rcases (Db.uses_posted posts').mp uses with before | same
    · rcases (Db.uses_posted posts).mp before with before | same
      · exact .inl before
      · exact .inr ⟨.paymentSource, by simp, sourceReference.symm.trans same⟩
    · exact .inr ⟨.paymentTarget, by simp, targetReference.symm.trans same⟩

end Uses

namespace Db.Books

/-! ## References that are still unused -/

theorem refund_unused (books : c.Books) {refund : Refund} (listed : refund ∈ c.refunds)
    (status : c.statusOf refund.transactionId = some .processing) {purpose : Purpose}
    (ends : purpose ∈ [Purpose.refund, .refundSource, .refundRelease]) :
    ¬ c.Uses (postingReference purpose refund.reference) := by
  intro uses
  have done := books.journal.done (books.linked.refundNames.plain refund listed) uses
  simp only [List.mem_cons, List.not_mem_nil, or_false] at ends
  rcases ends with rfl | rfl | rfl <;>
  · obtain ⟨other, there, same, ended⟩ := done
    obtain rfl := books.linked.refundNames.unique other there refund listed same
    simp [status] at ended

theorem payout_unused (books : c.Books) {payout : Payout} (listed : payout ∈ c.payouts)
    (status : c.statusOf payout.transactionId = some .processing) {purpose : Purpose}
    (ends : purpose ∈ [Purpose.payout, .payoutFee, .payoutRelease]) :
    ¬ c.Uses (postingReference purpose payout.reference) := by
  intro uses
  have done := books.journal.done (books.linked.payoutNames.plain payout listed) uses
  simp only [List.mem_cons, List.not_mem_nil, or_false] at ends
  rcases ends with rfl | rfl | rfl <;>
  · obtain ⟨other, there, same, ended⟩ := done
    obtain rfl := books.linked.payoutNames.unique other there payout listed same
    simp [status] at ended

theorem reversal_unused (books : c.Books) {payout : Payout} (listed : payout ∈ c.payouts)
    (status : c.statusOf payout.transactionId = some .successful) {purpose : Purpose}
    (ends : purpose ∈ [Purpose.payoutReversal, .payoutFeeRefund]) :
    ¬ c.Uses (postingReference purpose payout.reference) := by
  intro uses
  have done := books.journal.done (books.linked.payoutNames.plain payout listed) uses
  rcases List.mem_pair.mp ends with rfl | rfl <;>
  · obtain ⟨other, there, same, ended⟩ := done
    obtain rfl := books.linked.payoutNames.unique other there payout listed same
    simp [status] at ended

theorem payment_unused (books : c.Books) {row : Transaction} (listed : row ∈ c.transactions)
    (unsettled : row.status = .pending ∨ row.status = .processing) {purpose : Purpose}
    (credits : purpose ∈ [Purpose.payment, .paymentSource, .paymentTarget, .paymentFee]) :
    ¬ c.Uses (postingReference purpose row.reference) := by
  intro uses
  have done := books.journal.done (books.linked.transactionNames.plain row listed) uses
  simp only [List.mem_cons, List.not_mem_nil, or_false] at credits
  rcases credits with rfl | rfl | rfl | rfl <;>
  · obtain ⟨other, there, same, -, settled⟩ := done
    obtain rfl := books.linked.transactionNames.unique other there row listed same
    rcases unsettled with status | status <;> simp [status] at settled

theorem transfer_unused (books : c.Books) {name : String} (plain : Colonless name)
    (unnamed : c.findTransactionByReference name = none) {purpose : Purpose}
    (moves : purpose ∈ [Purpose.transfer, .transferFee]) :
    ¬ c.Uses (postingReference purpose name) := by
  intro uses
  have done := books.journal.done plain uses
  rcases List.mem_pair.mp moves with rfl | rfl <;>
  · obtain ⟨other, there, rfl, -⟩ := done
    have absent := List.find?_eq_none.mp unnamed other there
    simp at absent

theorem settlement_unused (books : c.Books) {payment : Payment} (listed : payment ∈ c.payments)
    (holding : payment.pendingAmount ≠ 0) : ¬ c.Settled payment.id := by
  intro settled
  obtain ⟨other, there, same, nothing, -⟩ := books.journal.done (colonless_uuidText _) settled
  obtain rfl := Table.eq_of_key there listed (uuidText_injective same)
  exact holding nothing

theorem cleared_eq (books : c.Books) : c.cleared = c := by
  have empty := books.journal.settled
  simp only [cleared, onLedger, Ledger.clearDeferred, ← empty]

/-- A transaction that has done nothing may commit. -/
theorem idle (books : c.Books) : KeepsBooks c c := by
  rw [KeepsBooks, books.cleared_eq]
  exact ⟨{ Progress.refl c with
    successes := successes_of fun refund there now => ⟨there, now⟩
    released := fun id used => .inl used }, books⟩

end Db.Books

namespace Services

variable {α : Type} {mode : Mode} {T : Db → Db → Prop} {F : Knowing} {held : List RowLock}

/-- A transaction that has done nothing ends. -/
theorem keeping_idle {a : α} :
    Keeping .inside Eq F (pure a) (fun _ => KeepsBooks) fun _ => Fact.nothing := by
  refine keeping_commit (U := fun _ => Eq) (R := fun _ => F) keeping_stay ?_
  rintro - - c b books rfl -
  exact books.idle

/-! ## Transactions and payments -/

namespace TransactionsService

theorem newTransaction_plain (id : Uuid) (random now : Nat) (input : NewTransaction) :
    Colonless (newTransaction id random now input).reference :=
  colonless_random (by decide) 20 random

theorem keeping_create (id : Uuid) (random : Nat) (input : NewTransaction) :
    Keeping .inside T F (create id random input) (fun row c b => ∃ m, T c m ∧ Created row m b)
      fun row => F.and (Fact.given (∃ now, row = newTransaction id random now input)) := by
  refine keeping_query.bind fun now =>
    (keeping_save (writes_insertRow _) (guarded_checkNewRow _)).bind fun _ => ?_
  exact keeping_answer (U := fun row c b => ∃ m, T c m ∧ Created row m b)
    fun _ _ _ known => ⟨known, now, rfl⟩

/-- The row, as nobody else changes it. -/
def theTransaction (id : Uuid) (row : Transaction) : Knowing :=
  (lockedTransaction row).and (Fact.given (row.id = id))

theorem keeping_lockWithin (id : Uuid) :
    Keeping .inside Eq F (lockWithin id) (fun _ => Eq) fun row => F.and (theTransaction id row) := by
  refine (leads_select (R := fun found => F.and (Fact.each found (theTransaction id))) ?_).bind
    fun found => keeping_orThrow_each
  rintro held c b - rfl known mine
  refine ⟨known, ?_⟩
  cases found : c.transactions.find? id with
  | none => trivial
  | some row =>
    obtain ⟨-, rfl⟩ := Table.find?_some found
    exact ⟨⟨mine _ List.mem_cons_self, found⟩, rfl⟩

theorem keeping_transition (id : Uuid) (status : TransactionStatus)
    (patch : Requests.TransitionPatch) :
    Keeping .inside T F (transition id status patch)
      (fun _ c b => ∃ m, T c m ∧ Transitioned id status patch m b) fun _ => F := by
  refine (keeping_select.bind fun _ => keeping_orThrow).bind fun current => keeping_ret.bind fun _ => ?_
  exact (keeping_save (writes_modifyTransaction id (keeps_apply patch status))
    (guarded_checkTransition id _)).bind fun _ => keeping_query.bind fun _ => keeping_orFail

theorem keeping_getById (id : Uuid) :
    Keeping mode T F (getById .dataSource id) (fun _ => T) fun _ => F :=
  keeping_queryCommitted.bind fun _ => keeping_orThrow

theorem keeping_mergeMetadataWithin (id : Uuid) :
    Keeping .inside T F (mergeMetadataWithin id) (fun _ => T) fun _ => F := by
  refine keeping_conclude (keeping_execute (.id _)) fun _ _ c b _ done _ => ?_
  obtain ⟨m, before, rfl⟩ := done
  exact before

end TransactionsService

/-- A payment has been credited. -/
def credited (transactionId : Uuid) : Knowing :=
  .ofStable (·.Has [.successful, .reversed] transactionId) (by
    rintro c c' - ⟨continues, -⟩ before
    exact continues.toProgress.credited before)

namespace PaymentsService

/-- The row, as nobody else changes it. -/
def thePayment (id : Uuid) (payment : Payment) : Knowing :=
  (lockedPayment payment).and (Fact.given (payment.id = id))

theorem keeping_lockWithin (id : Uuid) :
    Keeping .inside Eq F (lockWithin id) (fun _ => Eq) fun payment => F.and (thePayment id payment) := by
  refine (leads_select (R := fun found => F.and (Fact.each found (thePayment id))) ?_).bind
    fun found => keeping_orThrow_each
  rintro held c b - rfl known mine
  refine ⟨known, ?_⟩
  cases found : c.payments.find? id with
  | none => trivial
  | some payment =>
    obtain ⟨-, rfl⟩ := Table.find?_some found
    exact ⟨⟨mine _ List.mem_cons_self, found⟩, rfl⟩

theorem keeping_update (id : Uuid) {change : Payment → Payment}
    (byId : ∀ row, (change row).id = row.id)
    (byTransaction : ∀ row, (change row).transactionId = row.transactionId) :
    Keeping .inside T F (update id change) (fun _ c b => ∃ m, T c m ∧ PaymentChanged id change m b)
      fun _ => F :=
  keeping_save (writes_modifyPayment id byId byTransaction) (guarded_checkPayment id change)

end PaymentsService

theorem OutboxService.keeping_add (event : OutboxEvent) :
    Keeping .inside T F (OutboxService.add event) (fun _ c b => ∃ m, T c m ∧ b = m.addEvent event)
      fun _ => F :=
  keeping_execute (writes_addEvent event)

/-! ## Fees and limits -/

namespace FeesService

theorem calculateFee_nonneg {amount fee : Int} {rule : FeeRule} (checked : rule.Checked)
    (result : calculateFee amount rule = .ok fee) : 0 ≤ fee := by
  obtain ⟨fixed, least, percentage, most⟩ := checked
  unfold calculateFee at result
  split_ifs at result with positive
  have part : 0 ≤ (amount * rule.percentageBps + 9999).tdiv 10000 := by
    have product : 0 ≤ amount * rule.percentageBps := Int.mul_nonneg (by omega) percentage
    exact Int.tdiv_nonneg (by omega) (by decide)
  generalize (amount * rule.percentageBps + 9999).tdiv 10000 = part' at part result
  obtain rfl := Except.ok.inj result
  cases capped : rule.maxAmount with
  | none =>
    dsimp only
    split_ifs <;> omega
  | some most' =>
    have above := most most' capped
    dsimp only
    split_ifs <;> omega

theorem recorded_eq {fee : FeeQuote} (nonneg : 0 ≤ fee.amount) {input : TransactionsService.NewTransaction}
    (free : input.feeAmount = 0) : (recorded fee input).type = input.type ∧
      (recorded fee input).status = input.status ∧ (recorded fee input).feeAmount = fee.amount := by
  unfold recorded
  split_ifs
  · exact ⟨rfl, rfl, rfl⟩
  · exact ⟨rfl, rfl, by omega⟩

theorem keeping_ruleOf (operation : FeeOperation) (currency : String) (organizationId : Option Uuid) :
    Keeping mode T F (ruleOf operation currency organizationId) (fun _ => T) fun found =>
      F.and (Fact.each found fun rule => Fact.given rule.Checked) :=
  keeping_each fun _ _ rule inv _ found => inv.fees rule (List.mem_of_find?_eq_some found)

theorem keeping_quote (operation : FeeOperation) (currency : String) (amount : Int)
    (organizationId : Option Uuid) :
    Keeping mode T F (quote operation currency amount organizationId) (fun _ => T) fun fee =>
      F.and (Fact.given (0 ≤ fee.amount)) := by
  have active : Keeping mode T F (activeRule operation currency organizationId) (fun _ => T) fun found =>
      F.and (Fact.each found fun rule => Fact.given rule.Checked) := by
    cases organizationId with
    | none => exact keeping_ruleOf _ _ _
    | some id =>
      refine (keeping_ruleOf _ _ _).bind fun own => ?_
      split_ifs
      · exact keeping_pure fun _ _ _ known => known
      · exact keeping_less (keeping_ruleOf _ _ _) fun _ _ _ known => ⟨known.1.1, known.2⟩
  refine active.bind fun rule => ?_
  cases rule with
  | none => exact keeping_pure fun _ _ _ known => ⟨known.1, le_rfl⟩
  | some rule =>
    refine keeping_given.bind fun fee => keeping_pure fun _ _ _ known => ⟨known.1.1, ?_⟩
    exact calculateFee_nonneg known.1.2 known.2

end FeesService

theorem LimitsService.keeping_assertWithinLimitsWithin (input : LimitInput) :
    Keeping .inside T F (LimitsService.assertWithinLimitsWithin input) (fun _ => T) fun _ => F := by
  refine Leads.bind (R := fun _ => F) (U := fun _ => T) ?_ fun active => ?_
  · unfold LimitsService.activeRule
    split
    · refine keeping_queryCommitted.bind fun own => ?_
      split_ifs
      · exact keeping_stay
      · exact keeping_queryCommitted
    · exact keeping_queryCommitted
  · cases active with
    | none => exact keeping_stay
    | some rule =>
      refine keeping_ret.bind fun _ => ?_
      split_ifs
      · refine keeping_select.bind fun _ => Leads.bind (R := fun _ => F) (U := fun _ => T) ?_
          fun _ => keeping_ret
        refine keeping_query.bind fun now => keeping_query.bind fun daily => ?_
        split_ifs
        · exact keeping_query.bind fun _ => keeping_stay
        · exact keeping_stay
      · exact keeping_stay

/-! ## Wallets -/

namespace WalletsService

/-- The wallet with this id. -/
def theWallet (walletId : Uuid) (wallet : Wallet) : Knowing :=
  (stored wallet).and (Fact.given (wallet.id = walletId))

theorem theWallet_row {walletId : Uuid} {wallet : Wallet}
    (mine : (theWallet walletId wallet).holds held c) :
    ∃ row ∈ c.wallets, row.id = walletId ∧ wallet.Continues row := by
  obtain ⟨⟨row, found, same⟩, rfl⟩ := mine
  exact ⟨row, (Table.find?_some found).1, (Table.find?_some found).2, same⟩

theorem theWallet_of_mem {wallet : Wallet} (member : wallet ∈ c.wallets) :
    (theWallet wallet.id wallet).holds held c :=
  ⟨⟨wallet, Table.find?_of_mem member, .refl wallet⟩, rfl⟩

theorem keeping_getWallet (walletId : Uuid) :
    Keeping mode T F (getWallet walletId) (fun _ => T) fun wallet =>
      F.and (theWallet walletId wallet) := by
  refine (keeping_each fun held c wallet _ _ found => ?_).bind fun found => keeping_orThrow_each
  obtain ⟨member, rfl⟩ := Table.find?_some found
  exact theWallet_of_mem member

theorem keeping_findOwned (owner : Owner) (walletId : Uuid) :
    Keeping mode T F (findOwned owner walletId) (fun _ => T) fun wallet =>
      F.and (theWallet wallet.id wallet) :=
  (keeping_each fun _ _ _ _ _ found => theWallet_of_mem (Table.find?_some found).1).bind
    fun _ => keeping_orThrow_filter

theorem keeping_findWallet (owner : Owner) (currency : String) :
    Keeping mode T F (findWallet owner currency) (fun _ => T) fun found =>
      F.and (Fact.each found fun wallet => theWallet wallet.id wallet) :=
  keeping_each fun _ _ _ _ _ found => theWallet_of_mem (List.mem_of_find?_eq_some found)

theorem keeping_lockRows (ids : List Uuid) :
    Keeping .inside T F (lockRows ids) (fun _ => T) fun _ => F := by
  induction ids with
  | nil => exact keeping_stay
  | cons id rest ih => exact keeping_select.bind fun _ => ih.bind fun _ => keeping_stay

theorem keeping_lockActiveWallets (ids : List Uuid) :
    Keeping .inside T F (lockActiveWallets ids) (fun _ => T) fun _ => F := by
  refine (keeping_lockRows _).bind fun rows => ?_
  split_ifs
  · exact keeping_throw
  · exact keeping_stay

/-! ### Movements -/

section Movements

variable {walletId : Uuid} {wallet : Wallet} {currency : String} {movement : MoneyMovement}
  {other : Uuid}

/-- What has been done, with this wallet. -/
def Did (T : Db → Db → Prop) (walletId : Uuid) (did : Db → Wallet → Db → Db → Prop) (c b : Db) : Prop :=
  ∃ m, T c m ∧ ∃ row ∈ c.wallets, row.id = walletId ∧ did c row m b

/-- One movement of a wallet and, in some cases, another one. -/
theorem Did.both {p : Prop} {first second : Db → Wallet → Db → Db → Prop} {c b : Db}
    (done : p ∧ Did (Did T walletId first) walletId second c b ∨ ¬ p ∧ Did T walletId first c b) :
    ∃ m, T c m ∧ ∃ row ∈ c.wallets, row.id = walletId ∧
      ∃ m', first c row m m' ∧ (p ∧ second c row m' b ∨ ¬ p ∧ b = m') := by
  rcases done with ⟨holds, m', ⟨m, before, row, member, own, one⟩, again, member', own', two⟩ |
    ⟨not, m, before, row, member, own, one⟩
  · obtain rfl := Table.eq_of_key member' member (own'.trans own.symm)
    exact ⟨m, before, again, member, own, m', one, .inl ⟨holds, two⟩⟩
  · exact ⟨m, before, row, member, own, b, one, .inr ⟨not, rfl⟩⟩

theorem keeping_shift (id : Uuid) (movement : MoneyMovement) (source target : WalletBalance) {input : PostingInput}
    (is : input = Finstack.WalletsService.move currency movement (balanceAccount wallet source)
      (balanceAccount wallet target))
    (mine : ∀ held c, c.Books → F.holds held c → (theWallet walletId wallet).holds held c)
    (unused : ∀ held c m, c.Books → F.holds held c → T c m → ¬ m.Uses movement.reference) :
    Keeping .inside T F (LedgerService.postWithin id input)
      (fun _ => Did T walletId fun _ row =>
        Shifted row source target movement.amount movement.reference)
      fun _ => F := by
  subst is
  refine keeping_less (keeping_conclude (keeping_postWithin id unused) ?_) fun _ _ _ known => known.1
  rintro answer held c b books ⟨m, total, before, posts⟩ ⟨known, -⟩
  obtain ⟨row, member, own, -, same⟩ := theWallet_row (mine held c books known)
  refine ⟨m, before, row, member, own, _, currency, movement.description, id, total, ?_, posts⟩
  rw [same, same]

theorem keeping_draw (id : Uuid) (movement : MoneyMovement) (balance : WalletBalance) {input : PostingInput}
    (is : input = Finstack.WalletsService.move currency movement (balanceAccount wallet balance) other)
    (mine : ∀ held c, c.Books → F.holds held c → (theWallet walletId wallet).holds held c)
    (platforms : ∀ held c, c.Books → F.holds held c → (platform other).holds held c)
    (unused : ∀ held c m, c.Books → F.holds held c → T c m → ¬ m.Uses movement.reference) :
    Keeping .inside T F (LedgerService.postWithin id input)
      (fun _ => Did T walletId fun c row => Drawn c row balance movement.amount movement.reference)
      fun _ => F := by
  subst is
  refine keeping_less (keeping_conclude (keeping_postWithin id unused) ?_) fun _ _ _ known => known.1
  rintro answer held c b books ⟨m, total, before, posts⟩ ⟨known, -⟩
  obtain ⟨row, member, own, -, same⟩ := theWallet_row (mine held c books known)
  refine ⟨m, before, row, member, own, _, currency, movement.description, other, id, total, ?_,
    platforms held c books known, posts⟩
  rw [same]

theorem keeping_pay (id : Uuid) (movement : MoneyMovement) (balance : WalletBalance) {input : PostingInput}
    (is : input = Finstack.WalletsService.move currency movement other (balanceAccount wallet balance))
    (mine : ∀ held c, c.Books → F.holds held c → (theWallet walletId wallet).holds held c)
    (platforms : ∀ held c, c.Books → F.holds held c → (platform other).holds held c)
    (unused : ∀ held c m, c.Books → F.holds held c → T c m → ¬ m.Uses movement.reference) :
    Keeping .inside T F (LedgerService.postWithin id input)
      (fun _ => Did T walletId fun c row => Paid c row balance movement.amount movement.reference)
      fun _ => F := by
  subst is
  refine keeping_less (keeping_conclude (keeping_postWithin id unused) ?_) fun _ _ _ known => known.1
  rintro answer held c b books ⟨m, total, before, posts⟩ ⟨known, -⟩
  obtain ⟨row, member, own, -, same⟩ := theWallet_row (mine held c books known)
  refine ⟨m, before, row, member, own, _, currency, movement.description, other, id, total, ?_,
    platforms held c books known, posts⟩
  rw [same]

theorem keeping_collectFeeWithin (fresh : Fresh) (walletId : Uuid) (balance : WalletBalance)
    (unused : ∀ held c m, c.Books → F.holds held c → T c m → ¬ m.Uses movement.reference) :
    Keeping .inside T F (collectFeeWithin fresh walletId balance movement)
      (fun _ => Did T walletId fun c row => Drawn c row balance movement.amount movement.reference)
      fun _ => F := by
  refine (keeping_getWallet walletId).bind fun wallet =>
    (keeping_ensureSystemAccount _ _).bind fun revenue => ?_
  exact keeping_less (keeping_draw _ _ balance rfl (fun _ _ _ known => known.1.2) (fun _ _ _ known => known.2)
    fun held c m books known => unused held c m books known.1.1) fun _ _ _ known => known.1.1

theorem keeping_refundFeeWithin (fresh : Fresh) (walletId : Uuid)
    (unused : ∀ held c m, c.Books → F.holds held c → T c m → ¬ m.Uses movement.reference) :
    Keeping .inside T F (refundFeeWithin fresh walletId movement)
      (fun _ => Did T walletId fun c row => Paid c row .available movement.amount movement.reference)
      fun _ => F := by
  refine (keeping_getWallet walletId).bind fun wallet =>
    (keeping_ensureSystemAccount _ _).bind fun revenue => ?_
  exact keeping_less (keeping_pay _ _ .available rfl (fun _ _ _ known => known.1.2) (fun _ _ _ known => known.2)
    fun held c m books known => unused held c m books known.1.1) fun _ _ _ known => known.1.1

theorem keeping_depositWithin (fresh : Fresh) (walletId : Uuid) (into : WalletBalance)
    (unused : ∀ held c m, c.Books → F.holds held c → T c m → ¬ m.Uses movement.reference) :
    Keeping .inside T F (depositWithin fresh walletId movement into)
      (fun _ => Did T walletId fun c row => Paid c row into movement.amount movement.reference)
      fun _ => F := by
  refine (keeping_getWallet walletId).bind fun wallet =>
    (keeping_ensureSystemAccount _ _).bind fun clearing =>
      (keeping_lockActiveWallets _).bind fun _ => ?_
  exact keeping_less (keeping_pay _ _ into rfl (fun _ _ _ known => known.1.2) (fun _ _ _ known => known.2)
    fun held c m books known => unused held c m books known.1.1) fun _ _ _ known => known.1.1

theorem keeping_releaseWithin (id walletId : Uuid)
    (unused : ∀ held c m, c.Books → F.holds held c → T c m → ¬ m.Uses movement.reference) :
    Keeping .inside T F (releaseWithin id walletId movement)
      (fun _ => Did T walletId fun _ row =>
        Shifted row .reserved .available movement.amount movement.reference)
      fun _ => F :=
  (keeping_getWallet walletId).bind fun _ => keeping_less (keeping_shift _ _
    .reserved .available rfl (fun _ _ _ known => known.2) fun held c m books known => unused held c m books known.1)
    fun _ _ _ known => known.1

theorem keeping_makeAvailableWithin (id walletId : Uuid)
    (unused : ∀ held c m, c.Books → F.holds held c → T c m → ¬ m.Uses movement.reference) :
    Keeping .inside T F (makeAvailableWithin id walletId movement)
      (fun _ => Did T walletId fun _ row =>
        Shifted row .pending .available movement.amount movement.reference)
      fun _ => F :=
  (keeping_getWallet walletId).bind fun _ => keeping_less (keeping_shift _ _
    .pending .available rfl (fun _ _ _ known => known.2) fun held c m books known => unused held c m books known.1)
    fun _ _ _ known => known.1

/-- A hold, or nothing because something has been posted under its reference. -/
theorem keeping_reserveWithin (id walletId : Uuid)
    (fresh : ∀ held c m, c.Books → F.holds held c → T c m → m.Uses movement.reference →
      c.Uses movement.reference) :
    Keeping .inside T F (reserveWithin id walletId movement)
      (fun _ c b => Did T walletId (fun _ row =>
        Shifted row .available .reserved movement.amount movement.reference) c b ∨
          T c b ∧ c.Uses movement.reference)
      fun _ => F := by
  refine (keeping_lockActiveWallets _).bind fun _ => (keeping_getWallet walletId).bind fun wallet =>
    keeping_less (keeping_conclude (keeping_postWithin_or (K := used movement.reference) id
      fun held c m books known => fresh held c m books known.1) ?_) fun _ _ _ known => known.1.1
  rintro answer held c b books done ⟨⟨known, mine⟩, more⟩
  rcases done with ⟨-, m, total, before, posts⟩ | ⟨again, before⟩
  · obtain ⟨row, member, own, -, same⟩ := theWallet_row mine
    refine .inl ⟨m, before, row, member, own, _, wallet.currency, movement.description, id, total, ?_,
      posts⟩
    rw [same, same]
    rfl
  · rw [if_pos again] at more
    exact .inr ⟨before, more⟩

/-! ### Holds out of two balances -/

/-- Between pending and available on one side and reserved on the other. -/
def Split (row : Wallet) (amount fromPending : Int) (side : EntryDirection) (reference : String)
    (m b : Db) : Prop :=
  ∃ (input : PostingInput) (id : Uuid) (total : Int), input.reference = reference ∧
    input.entries = Finstack.WalletsService.splitEntries row amount fromPending side ∧
    Posts id input total m b

theorem splitEntries_continues {row : Wallet} (same : wallet.Continues row) (amount fromPending : Int)
    (side : EntryDirection) : Finstack.WalletsService.splitEntries wallet amount fromPending side =
      Finstack.WalletsService.splitEntries row amount fromPending side := by
  have pending : row.pendingAccountId = wallet.pendingAccountId := same.2 .pending
  have available : row.availableAccountId = wallet.availableAccountId := same.2 .available
  have reserved : row.reservedAccountId = wallet.reservedAccountId := same.2 .reserved
  simp only [Finstack.WalletsService.splitEntries, pending, available, reserved]

theorem keeping_releaseSplitWithin (id walletId : Uuid) (fromPending : Int)
    (unused : ∀ held c m, c.Books → F.holds held c → T c m → ¬ m.Uses movement.reference) :
    Keeping .inside T F (releaseSplitWithin id walletId movement fromPending)
      (fun _ => Did T walletId fun _ row =>
        Split row movement.amount fromPending .credit movement.reference)
      fun _ => F := by
  refine (keeping_getWallet walletId).bind fun wallet => keeping_less (keeping_conclude
    (keeping_postWithin id fun held c m books known => unused held c m books known.1) ?_)
    fun _ _ _ known => known.1.1
  rintro answer held c b books ⟨m, total, before, posts⟩ ⟨⟨-, mine⟩, -⟩
  obtain ⟨row, member, own, same⟩ := theWallet_row mine
  exact ⟨m, before, row, member, own, _, id, total, rfl, splitEntries_continues same _ _ _, posts⟩

theorem keeping_reserveSplitWithin (id walletId : Uuid) (fromPending : Int)
    (fresh : ∀ held c m, c.Books → F.holds held c → T c m → m.Uses movement.reference →
      c.Uses movement.reference) :
    Keeping .inside T F (reserveSplitWithin id walletId movement fromPending)
      (fun _ c b => Did T walletId (fun _ row =>
        Split row movement.amount fromPending .debit movement.reference) c b ∨
          T c b ∧ c.Uses movement.reference)
      fun _ => F := by
  refine (keeping_lockActiveWallets _).bind fun _ => (keeping_getWallet walletId).bind fun wallet =>
    keeping_less (keeping_conclude (keeping_postWithin_or (K := used movement.reference) id
      fun held c m books known => fresh held c m books known.1) ?_) fun _ _ _ known => known.1.1
  rintro answer held c b books done ⟨⟨known, mine⟩, more⟩
  rcases done with ⟨-, m, total, before, posts⟩ | ⟨again, before⟩
  · obtain ⟨row, member, own, same⟩ := theWallet_row mine
    exact .inl ⟨m, before, row, member, own, _, id, total, rfl, splitEntries_continues same _ _ _, posts⟩
  · rw [if_pos again] at more
    exact .inr ⟨before, more⟩

end Movements

end WalletsService

end Services

end Finstack
