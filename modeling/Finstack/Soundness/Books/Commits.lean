import Finstack.Soundness.Books.Balances
import Finstack.Soundness.Books.Journal
import Finstack.Soundness.Books.Discipline

/-! # What a commit leaves of the books

A commit posts for one wallet and writes rows. It keeps the books if the wallet's pending and reserved
balances move as the rows do, and if the records have come to what is posted.
-/

namespace Finstack

open Foundation Services LedgerService

variable {c m b : Db}

namespace Db

/-- The queue of the deferred checks, after them. -/
abbrev cleared (db : Db) : Db := db.onLedger Ledger.clearDeferred

theorem recording_cleared (recording : m.ledger.Recording) : m.cleared.ledger.Recording :=
  ⟨⟨recording.indexed.references, recording.indexed.reversals⟩, recording.entries⟩

theorem Linked.onLedger (linked : m.Linked) (change : Ledger → Ledger) : (m.onLedger change).Linked :=
  linked.congr rfl rfl rfl rfl rfl

theorem Linked.posted {id : Uuid} {input : PostingInput} {amount : Int} (linked : m.Linked)
    (posts : Posts id input amount m b) : b.Linked := by
  obtain ⟨-, rfl⟩ := posts
  exact linked.onLedger _

theorem has_iff {statuses : List TransactionStatus} {id : Uuid} :
    m.Has statuses id ↔ ∃ status ∈ statuses, m.statusOf id = some status := by
  unfold Has
  cases m.statusOf id <;> simp

/-- What is not credited now was not credited before. -/
theorem Progress.credited (progress : c.Progress b) {id : Uuid}
    (before : c.Has [.successful, .reversed] id) : b.Has [.successful, .reversed] id := by
  rw [has_iff] at before ⊢
  obtain ⟨status, listed, here⟩ := before
  have settled : c.statusOf id = some .successful ∨ c.statusOf id = some .reversed := by
    rcases List.mem_pair.mp listed with rfl | rfl
    · exact .inl here
    · exact .inr here
  rcases progress.statusOf_successful settled with after | after
  · exact ⟨_, by simp, after⟩
  · exact ⟨_, by simp, after⟩

end Db

/-! ## What is left in a settlement hold -/

/-- At most one payment has changed, and only in how much of it is held until when. -/
structure HoldMoves (payment : Payment) (by' : Int) (payments payments' : Table Payment) : Prop where
  kept : Table.Kept Payment.Continues payments payments'
  linked : ∀ m : Db, m.payments = payments → m.Linked → (m.onPayments fun _ => payments').Linked
  origin : ∀ row ∈ payments', ∃ old ∈ payments, old.id = row.id ∧ old.Continues row ∧
    (row.id ≠ payment.id → row = old)
  others : ∀ row ∈ payments, row.id ≠ payment.id → payments'.find? row.id = some row
  pending : ∀ walletId,
    (payments'.sum fun row => if row.walletId = walletId then row.pendingAmount else 0) =
      (payments.sum fun row => if row.walletId = walletId then row.pendingAmount else 0) +
        if payment.walletId = walletId then by' else 0

theorem HoldMoves.refl (payment : Payment) (payments : Table Payment) :
    HoldMoves payment 0 payments payments where
  kept := kept_refl _ Payment.Continues.refl
  linked := by
    rintro m rfl linked
    exact linked
  origin row member := ⟨row, member, rfl, .refl row, fun _ => rfl⟩
  others row member _ := Table.find?_of_mem member
  pending walletId := by simp

theorem HoldMoves.changed {payment : Payment} {change : Payment → Payment}
    (found : m.payments.find? payment.id = some payment)
    (changed : PaymentChanged payment.id change m b)
    (keeps : ∀ row, key (change row) = key row) (same : ∀ row, Payment.Continues row (change row)) :
    b = m.onPayments (fun _ => m.payments.modify payment.id change) ∧
      HoldMoves payment ((change payment).pendingAmount - payment.pendingAmount) m.payments
        (m.payments.modify payment.id change) := by
  refine ⟨changed.2, Table.kept_modify keeps same Payment.Continues.refl, ?_, ?_, ?_, ?_⟩
  · rintro m' payments linked
    have again : PaymentChanged payment.id change m'
        (m'.onPayments fun _ => m.payments.modify payment.id change) := by
      refine ⟨?_, by rw [← payments]; rfl⟩
      simpa only [payments] using changed.1
    exact linked.paymentChanged keeps same again
  · intro row member
    obtain ⟨old, there, own, rfl | ⟨rfl, here⟩⟩ := Table.origin keeps row member
    · exact ⟨row, there, rfl, .refl row, fun _ => rfl⟩
    · exact ⟨old, there, own, same old,
        fun other => (other (own.symm.trans (Table.find?_some here).2)).elim⟩
  · intro row member other
    exact (Table.find?_modify_ne keeps other.symm).trans (Table.find?_of_mem member)
  · exact Db.pendingOf_paymentChanged keeps (fun row => (same row).2.2.1) found
      ⟨changed.1, rfl⟩

/-! ## Postings for a wallet -/

/-- Postings under these references have been made between the accounts of one wallet and the
platform's: its pending and reserved balances have grown by this much. -/
structure LedgerMoves (wallets : Table Wallet) (walletId : Uuid) (pending reserved : Int)
    (references : List String) (ledger ledger' : Ledger) : Prop where
  codes : Table.Kept (fun account account' : LedgerAccount => account'.code = account.code)
    ledger.accounts ledger'.accounts
  postings : ∀ {id t}, ledger.transactions.find? id = some t → ledger'.transactions.find? id = some t
  recording : ledger.Recording → ledger'.Recording
  accounts : Accounts wallets ledger.accounts → Accounts wallets ledger'.accounts
  added : ∀ posting ∈ ledger'.transactions,
    posting ∈ ledger.transactions ∨ posting.reference ∈ references
  entries : ∀ k, (ledger.entriesOn k).length ≤ (ledger'.entriesOn k).length
  gains : Accounts wallets ledger.accounts →
    Gains wallets walletId pending reserved ledger.accounts ledger'.accounts

namespace LedgerMoves

variable {wallets : Table Wallet} {walletId : Uuid} {pending reserved pending' reserved' : Int}
  {references references' : List String} {ledger ledger' ledger'' : Ledger}

theorem refl : LedgerMoves wallets walletId 0 0 [] ledger ledger where
  codes := kept_refl _ fun _ => rfl
  postings found := found
  recording := id
  accounts := id
  added _ member := .inl member
  entries _ := le_rfl
  gains _ := .refl

theorem trans (first : LedgerMoves wallets walletId pending reserved references ledger ledger')
    (second : LedgerMoves wallets walletId pending' reserved' references' ledger' ledger'') :
    LedgerMoves wallets walletId (pending + pending') (reserved + reserved')
      (references ++ references') ledger ledger'' where
  codes := first.codes.trans (fun one two => two.trans one) second.codes
  postings found := second.postings (first.postings found)
  recording recording := second.recording (first.recording recording)
  accounts known := second.accounts (first.accounts known)
  added posting member := by
    rcases second.added posting member with old | new
    · exact (first.added posting old).imp_right (List.mem_append_left _)
    · exact .inr (List.mem_append_right _ new)
  entries k := (first.entries k).trans (second.entries k)
  gains known := (first.gains known).trans (second.gains (first.accounts known))

theorem posted {id : Uuid} {input : PostingInput} {amount : Int}
    (postable : Postable id input amount ledger)
    (gains : Accounts wallets ledger.accounts → Gains wallets walletId pending reserved ledger.accounts
      (LedgerService.posted id input amount ledger).accounts) :
    LedgerMoves wallets walletId pending reserved [input.reference] ledger
      (LedgerService.posted id input amount ledger) where
  codes k account found := by
    refine ⟨account.credited (delta account input.entries), ?_, rfl⟩
    rw [posted_account, found, Option.map_some]
  postings found := by rw [posted_transaction, found, Option.some_or]
  recording recording := recording.posted postable
  accounts known := known.posted
  added posting member := by
    rcases (Ledger.mem_posted postable).mp member with old | rfl
    · exact .inl old
    · exact .inr (List.mem_singleton.mpr rfl)
  entries k := by
    rw [LedgerService.posted, Ledger.post, Ledger.entriesOn_append, List.length_append]
    exact Nat.le_add_right _ _
  gains := gains

/-- An account that is posted to has more entries. -/
theorem entriesOn_posted {id : Uuid} {input : PostingInput} {amount : Int} {entry : PostingEntry}
    (member : entry ∈ input.entries) : (ledger.entriesOn entry.accountId).length <
      ((LedgerService.posted id input amount ledger).entriesOn entry.accountId).length := by
  rw [LedgerService.posted, Ledger.post, Ledger.entriesOn_append, List.length_append]
  have mine : (newEntries (newTransaction id input amount) input.entries).filter
      (fun stored => stored.ledgerAccountId = entry.accountId) ≠ [] := fun none =>
    List.filter_eq_nil_iff.mp none _ (List.mem_map.mpr ⟨entry, member, rfl⟩) (by simp)
  exact Nat.lt_add_of_pos_right (List.length_pos_iff.mpr mine)

end LedgerMoves

theorem Db.Coded.progress {accountId : Uuid} (coded : c.Coded accountId) (progress : c.Progress b) :
    b.Coded accountId := by
  obtain ⟨account, code, found, same⟩ := coded
  obtain ⟨account', found', kept⟩ := progress.codes accountId account found
  exact ⟨account', code, found', kept.trans same⟩

/-! ## Movements -/

/-- From a balance of a wallet to an account of the platform's. -/
def Drawn (c : Db) (wallet : Wallet) (balance : WalletBalance) (amount : Int) (reference : String)
    (m b : Db) : Prop :=
  ∃ (input : PostingInput) (currency description : String) (other id : Uuid) (total : Int),
    input = WalletsService.move currency ⟨amount, reference, description⟩
      (balanceAccount wallet balance) other ∧ c.Coded other ∧ Posts id input total m b

/-- From an account of the platform's to a balance of a wallet. -/
def Paid (c : Db) (wallet : Wallet) (balance : WalletBalance) (amount : Int) (reference : String)
    (m b : Db) : Prop :=
  ∃ (input : PostingInput) (currency description : String) (other id : Uuid) (total : Int),
    input = WalletsService.move currency ⟨amount, reference, description⟩ other
      (balanceAccount wallet balance) ∧ c.Coded other ∧ Posts id input total m b

/-- From one balance of a wallet to another. -/
def Shifted (wallet : Wallet) (source target : WalletBalance) (amount : Int) (reference : String)
    (m b : Db) : Prop :=
  ∃ (input : PostingInput) (currency description : String) (id : Uuid) (total : Int),
    input = WalletsService.move currency ⟨amount, reference, description⟩
      (balanceAccount wallet source) (balanceAccount wallet target) ∧ Posts id input total m b

section Movements

variable {wallets : Table Wallet} {wallet : Wallet} {balance source target : WalletBalance}
  {amount : Int} {reference : String}

theorem Drawn.moves (drawn : Drawn c wallet balance amount reference m b) (progress : c.Progress m)
    (member : wallet ∈ wallets) : ∃ ledger, b = m.onLedger (fun _ => ledger) ∧
      LedgerMoves wallets wallet.id (if balance = .pending then -amount else 0)
        (if balance = .reserved then -amount else 0) [reference] m.ledger ledger := by
  obtain ⟨input, currency, description, other, id, total, is, coded, posts⟩ := drawn
  have name : input.reference = reference := by rw [is]; rfl
  have entries : input.entries = [⟨balanceAccount wallet balance, .debit, amount⟩,
      ⟨other, .credit, amount⟩] := by rw [is]; rfl
  refine ⟨_, posts.result, name ▸ .posted posts.postable fun known => ?_⟩
  refine Gains.exchanged known member balance (.of_eq entries) rfl fun entry listed => ?_
  obtain rfl := List.mem_singleton.mp listed
  exact coded.progress progress

theorem Paid.moves (paid : Paid c wallet balance amount reference m b) (progress : c.Progress m)
    (member : wallet ∈ wallets) : ∃ ledger, b = m.onLedger (fun _ => ledger) ∧
      LedgerMoves wallets wallet.id (if balance = .pending then amount else 0)
        (if balance = .reserved then amount else 0) [reference] m.ledger ledger := by
  obtain ⟨input, currency, description, other, id, total, is, coded, posts⟩ := paid
  have name : input.reference = reference := by rw [is]; rfl
  have entries : input.entries.Perm [⟨balanceAccount wallet balance, .credit, amount⟩,
      ⟨other, .debit, amount⟩] := by
    rw [is]
    exact .swap _ _ _
  refine ⟨_, posts.result, name ▸ .posted posts.postable fun known => ?_⟩
  refine Gains.exchanged known member balance entries rfl fun entry listed => ?_
  obtain rfl := List.mem_singleton.mp listed
  exact coded.progress progress

theorem Shifted.moves (shifted : Shifted wallet source target amount reference m b)
    (member : wallet ∈ wallets) : ∃ ledger, b = m.onLedger (fun _ => ledger) ∧
      LedgerMoves wallets wallet.id
        ((if target = .pending then amount else 0) - if source = .pending then amount else 0)
        ((if target = .reserved then amount else 0) - if source = .reserved then amount else 0)
        [reference] m.ledger ledger := by
  obtain ⟨input, currency, description, id, total, is, posts⟩ := shifted
  have name : input.reference = reference := by rw [is]; rfl
  exact ⟨_, posts.result, name ▸ .posted posts.postable fun known =>
    Gains.moved known member source target is⟩

end Movements

/-! ## Commits -/

namespace Db

theorem Progress.held {payments : Table Payment} (kept : Table.Kept Payment.Continues m.payments payments) :
    m.Progress (m.onPayments fun _ => payments) :=
  { refl m with payments := kept }

/-- The postings of a transaction. -/
theorem Progress.moved {wallets : Table Wallet} {walletId : Uuid} {pending reserved : Int}
    {references : List String} {ledger : Ledger}
    (moves : LedgerMoves wallets walletId pending reserved references m.ledger ledger) :
    m.Progress (m.onLedger fun _ => ledger) :=
  { refl m with codes := moves.codes, postings := moves.postings }

/-- A commit keeps the books if it moves the balances as it moves the rows, posts what its records
have come to, and leaves settled payments alone. -/
theorem Books.commit (books : c.Books) (progress : c.Progress b) (linked : b.Linked)
    {ledger : Ledger} {walletId : Uuid} {pending reserved : Int} {references : List String}
    (moves : LedgerMoves c.wallets walletId pending reserved references c.ledger ledger)
    (result : b.ledger = ledger.clearDeferred)
    (others : b.wallets = c.wallets ∧ b.feeRules = c.feeRules)
    (pendingOf : ∀ id, b.pendingOf id = c.pendingOf id + if walletId = id then pending else 0)
    (heldOf : ∀ id, b.heldOf id = c.heldOf id + if walletId = id then reserved else 0)
    (come : ∀ reference ∈ references, ∃ purpose name, Colonless name ∧
      reference = postingReference purpose name ∧ b.Done name purpose)
    (settled : ∀ payment ∈ c.payments, c.Uses (postingReference .settlement (uuidText payment.id)) →
      b.payments.find? payment.id = some payment)
    (reversed : b.Reversed) (uncredited : b.Uncredited)
    (consumed : ∀ quote ∈ b.fxQuotes, ∀ reference, quote.conversionReference = some reference →
      quote ∈ c.fxQuotes ∨
        ∃ name, Colonless name ∧ reference = postingReference .payment name ∧ b.Done name .payment) :
    b.Books where
  linked := linked
  accounts := by
    rw [others.1, result]
    exact moves.accounts books.accounts
  journal := by
    have recording := moves.recording books.journal.recording
    refine books.journal.commit progress linked ?_ (by rw [result]; rfl) settled ?_
    · rw [result]
      exact ⟨⟨recording.indexed.references, recording.indexed.reversals⟩, recording.entries⟩
    · intro posting member
      rw [result] at member
      exact (moves.added posting member).imp_right (come posting.reference)
  balances := by
    have gains := moves.gains books.accounts
    constructor
    · intro wallet member
      rw [others.1] at member
      rw [result, pendingOf, ← books.balances.pending wallet member]
      exact gains.pending wallet member
    · intro wallet member
      rw [others.1] at member
      rw [result, heldOf, ← books.balances.reserved wallet member]
      exact gains.reserved wallet member
  reversed := reversed
  uncredited := uncredited
  consumed quote member reference converted := by
    rcases consumed quote member reference converted with old | new
    · obtain ⟨name, plain, same, done⟩ := books.consumed quote old reference converted
      exact ⟨name, plain, same, done.progress progress linked fun other => by cases other⟩
    · exact new
  fees rule member := books.fees rule (others.2 ▸ member)

/-- What is settled that was not is among the new references. -/
theorem settled_of_moves {ledger : Ledger} {walletId : Uuid} {pending reserved : Int}
    {references : List String}
    (moves : LedgerMoves c.wallets walletId pending reserved references c.ledger ledger)
    (result : b.ledger = ledger.clearDeferred) {id : Uuid} (settled : b.Settled id) :
    c.Settled id ∨ postingReference .settlement (uuidText id) ∈ references := by
  obtain ⟨posting, member, same⟩ := settled
  rw [result] at member
  rcases moves.added posting member with old | new
  · exact .inl ⟨posting, old, same⟩
  · exact .inr (same ▸ new)

/-- Refunds that were successful before. -/
theorem successes_of
    (successful : ∀ refund ∈ b.refunds, b.statusOf refund.transactionId = some .successful →
      refund ∈ c.refunds ∧ c.statusOf refund.transactionId = some .successful) :
    ∀ refund ∈ b.refunds, b.statusOf refund.transactionId = some .successful →
      (c.refunds.find? refund.id).isSome ∧ c.statusOf refund.transactionId = some .successful ∨
        ∃ wallet ∈ c.wallets, wallet.id = refund.walletId ∧
          c.ledger.entriesOn wallet.reservedAccountId ≠
            b.ledger.entriesOn wallet.reservedAccountId := by
  intro refund member now
  obtain ⟨old, before⟩ := successful refund member now
  exact .inl ⟨Option.isSome_iff_exists.mpr ⟨refund, Table.find?_of_mem old⟩, before⟩

/-- Payments stay with what is refunded of them. -/
theorem Reversed.commit (reversed : c.Reversed) (progress : c.Progress b)
    (origin : ∀ row ∈ b.payments, ∃ old ∈ c.payments, old.id = row.id ∧ old.Continues row)
    (totals : ∀ id, RefundsService.totalOf [.successful] id b = RefundsService.totalOf [.successful] id c) :
    b.Reversed := by
  intro row member full
  obtain ⟨old, there, own, transactionId, -, -, amount, -⟩ := origin row member
  rw [totals, ← own, amount] at full
  rw [transactionId]
  exact progress.statusOf_terminal (reversed old there full) rfl

/-- What is not credited is not touched. -/
theorem Uncredited.commit (uncredited : c.Uncredited) (progress : c.Progress b)
    (origin : ∀ row ∈ b.payments, ∃ old ∈ c.payments, old.Continues row ∧
      (row = old ∨ b.Has [.successful, .reversed] old.transactionId)) : b.Uncredited := by
  intro row member open'
  obtain ⟨old, there, same, rfl | credited⟩ := origin row member
  · exact uncredited row there fun before => open' (progress.credited before)
  · exact (open' (same.1 ▸ credited)).elim

end Db

namespace HoldMoves

variable {payment : Payment} {by' : Int} {payments : Table Payment}

theorem trans {payment' : Payment} {more : Int} {payments' payments'' : Table Payment}
    (first : HoldMoves payment by' payments payments')
    (second : HoldMoves payment' more payments' payments'') (same : payment'.id = payment.id)
    (mine : payment'.walletId = payment.walletId) :
    HoldMoves payment (by' + more) payments payments'' where
  kept := first.kept.trans Payment.Continues.trans second.kept
  linked m payments linked := second.linked (m.onPayments fun _ => payments') rfl
    (first.linked m payments linked)
  origin row member := by
    obtain ⟨middle, there, own, one, unchanged⟩ := second.origin row member
    obtain ⟨old, here, own', two, unchanged'⟩ := first.origin middle there
    refine ⟨old, here, own'.trans own, two.trans one, fun other => ?_⟩
    exact (unchanged (same ▸ other)).trans (unchanged' (own ▸ other))
  others row member other := by
    have kept := first.others row member other
    exact second.others row (Table.find?_some kept).1 (same ▸ other)
  pending walletId := by
    rw [second.pending, first.pending, mine]
    split_ifs <;> ring

/-- A payment whose settlement hold has ended is not among those that change. -/
theorem settled (moves : HoldMoves payment by' c.payments payments)
    (touched : ¬ c.Settled payment.id ∨ payments = c.payments) :
    ∀ other ∈ c.payments, c.Settled other.id → payments.find? other.id = some other := by
  intro other there ended
  rcases touched with holding | rfl
  · exact moves.others other there fun same => holding (same ▸ ended)
  · exact Table.find?_of_mem there

/-- Only what is credited changes. -/
theorem uncredited (moves : HoldMoves payment by' c.payments payments) (before : c.Uncredited)
    (listed : payment ∈ c.payments) (progress : c.Progress b) (result : b.payments = payments)
    (touched : b.Has [.successful, .reversed] payment.transactionId ∨ payments = c.payments) :
    b.Uncredited := by
  refine before.commit progress fun row there => ?_
  rw [result] at there
  obtain ⟨old, here, own, same, unchanged⟩ := moves.origin row there
  refine ⟨old, here, same, ?_⟩
  by_cases its : row.id = payment.id
  · obtain rfl := Table.eq_of_key here listed (own.trans its)
    exact touched.symm.imp (fun all => Table.eq_of_key (all ▸ there) here own.symm) id
  · exact .inl (unchanged its)

theorem reversed (moves : HoldMoves payment by' c.payments payments) (before : c.Reversed)
    (progress : c.Progress b) (result : b.payments = payments)
    (totals : ∀ id, RefundsService.totalOf [.successful] id b =
      RefundsService.totalOf [.successful] id c) : b.Reversed := by
  refine before.commit progress (fun row there => ?_) totals
  rw [result] at there
  obtain ⟨old, here, own, same, -⟩ := moves.origin row there
  exact ⟨old, here, own, same⟩

end HoldMoves

end Finstack
