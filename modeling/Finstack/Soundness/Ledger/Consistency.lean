import Finstack.Model.Ledger.Store

/-! # What the database keeps true of the ledger

`Ledger.Sound` holds between any two statements of a database transaction, `Ledger.Consistent` of
every committed state. Each insert keeps soundness because of its own checks; the deferred triggers
turn a sound ledger into a consistent one. A consistent ledger has no balance discrepancies and its
trial balance agrees in every currency.
-/

namespace Finstack

open Foundation

namespace Ledger

variable {ledger : Ledger}

/-- What the entries of an account make its balance. -/
def computedBalance (ledger : Ledger) (account : LedgerAccount) : Int :=
  ((ledger.entriesOn account.id).map fun entry => account.signed entry.direction entry.amount).sum

/-- The entries of a stored transaction add up to its amount on both sides. -/
structure Balanced (ledger : Ledger) (transaction : LedgerTransaction) : Prop where
  two : 2 ≤ (ledger.entriesOf transaction.id).length
  debits : sideSum .debit (ledger.entriesOf transaction.id) = transaction.amount
  credits : sideSum .credit (ledger.entriesOf transaction.id) = transaction.amount

/-- True between the statements of a database transaction. -/
structure Sound (ledger : Ledger) : Prop where
  balances : ∀ account ∈ ledger.accounts, account.balance = ledger.computedBalance account
  covered : ∀ account ∈ ledger.accounts,
    account.allowNegativeBalance = false → 0 ≤ account.balance
  onAccount : ∀ entry ∈ ledger.entries, ∃ account,
    ledger.accounts.find? entry.ledgerAccountId = some account ∧ account.currency = entry.currency
  ofTransaction : ∀ entry ∈ ledger.entries, ∃ transaction,
    ledger.transactions.find? entry.ledgerTransactionId = some transaction ∧
      transaction.currency = entry.currency
  settled : ∀ transaction ∈ ledger.transactions,
    transaction.id ∉ ledger.deferred → ledger.Balanced transaction

/-- True of every committed state. -/
structure Consistent (ledger : Ledger) : Prop extends ledger.Sound where
  nothingDeferred : ledger.deferred = []

theorem consistent_empty : empty.Consistent where
  balances := by rintro account ⟨⟩
  covered := by rintro account ⟨⟩
  onAccount := by rintro entry ⟨⟩
  ofTransaction := by rintro entry ⟨⟩
  settled := by rintro transaction ⟨⟩
  nothingDeferred := rfl

/-! ## New accounts -/

/-- What an accepted account insert has checked. -/
theorem checkNewAccount_ok {account : LedgerAccount}
    (success : ledger.checkNewAccount account = .ok ()) :
    account.balance = 0 ∧ ledger.accounts.find? account.id = none ∧
      account.code.bind ledger.findAccountByCode = none := by
  unfold checkNewAccount at success
  split_ifs at success with balance name currency id code
  exact ⟨not_not.mp balance, by simpa using id, by simpa using code⟩

/-- Nothing has been posted to an account that does not exist. -/
theorem Sound.entriesOn_absent (sound : ledger.Sound) {id : Uuid}
    (absent : ledger.accounts.find? id = none) : ledger.entriesOn id = [] := by
  apply List.filter_eq_nil_iff.mpr
  intro entry member
  obtain ⟨account, found, _⟩ := sound.onAccount entry member
  rintro same
  rw [decide_eq_true_eq] at same
  rw [same, absent] at found
  cases found

theorem Sound.insertAccount (sound : ledger.Sound) {account : LedgerAccount}
    (success : ledger.checkNewAccount account = .ok ()) : (ledger.insertAccount account).Sound := by
  obtain ⟨zero, absent, _⟩ := checkNewAccount_ok success
  have rows : ∀ {a}, a ∈ (ledger.insertAccount account).accounts → a ∈ ledger.accounts ∨ a = account :=
    fun member => (Table.mem_insert absent).mp member
  refine ⟨fun a member => ?_, fun a member => ?_, fun entry member => ?_, sound.ofTransaction,
    fun t member settled => ?_⟩
  · rcases rows member with old | rfl
    · exact sound.balances a old
    · have none : ledger.entriesOn a.id = [] := sound.entriesOn_absent absent
      change a.balance = ((ledger.entriesOn a.id).map _).sum
      rw [zero, none]
      rfl
  · rcases rows member with old | rfl
    · exact sound.covered a old
    · intro _
      rw [zero]
  · obtain ⟨a, found, currency⟩ := sound.onAccount entry member
    exact ⟨a, Table.find?_insert_of_some found, currency⟩
  · obtain ⟨two, debits, credits⟩ := sound.settled t member settled
    exact ⟨two, debits, credits⟩

/-! ## New transactions -/

/-- What an accepted transaction insert has checked. -/
theorem checkNewTransaction_ok {transaction : LedgerTransaction}
    (success : ledger.checkNewTransaction transaction = .ok ()) :
    0 < transaction.amount ∧ ledger.transactions.find? transaction.id = none ∧
      ledger.findTransactionByReference transaction.reference = none ∧
      transaction.reversalOfId.bind ledger.findReversalOf = none := by
  unfold checkNewTransaction at success
  split_ifs at success with text range currency amount id reference reversal original
  exact ⟨by omega, by simpa using id, by simpa using reference, by simpa using reversal⟩

/-- A search of the stored transactions finds old ones first. -/
private theorem insertTransaction_search {t : LedgerTransaction}
    (absent : ledger.transactions.find? t.id = none) (p : LedgerTransaction → Bool) :
    (ledger.insertTransaction t).transactions.rows.find? p =
      (ledger.transactions.rows.find? p).or (if p t then some t else none) := by
  have found := Table.rows_find?_insert ledger.transactions t p
  have fresh : ledger.transactions.find? (key t) = none := absent
  simp only [fresh, Option.isNone_none, true_and] at found
  exact found

theorem insertTransaction_reference {t : LedgerTransaction}
    (absent : ledger.transactions.find? t.id = none) (reference : String) :
    (ledger.insertTransaction t).findTransactionByReference reference =
      (ledger.findTransactionByReference reference).or
        (if t.reference = reference then some t else none) := by
  have found := insertTransaction_search absent fun t => decide (t.reference = reference)
  simp only [decide_eq_true_eq] at found
  exact found

theorem insertTransaction_reversal {t : LedgerTransaction}
    (absent : ledger.transactions.find? t.id = none) (original : Uuid) :
    (ledger.insertTransaction t).findReversalOf original =
      (ledger.findReversalOf original).or
        (if t.reversalOfId = some original then some t else none) := by
  have found := insertTransaction_search absent fun t => decide (t.reversalOfId = some original)
  simp only [decide_eq_true_eq] at found
  exact found

theorem Sound.insertTransaction (sound : ledger.Sound) {transaction : LedgerTransaction}
    (success : ledger.checkNewTransaction transaction = .ok ()) :
    (ledger.insertTransaction transaction).Sound := by
  obtain ⟨_, absent, _⟩ := checkNewTransaction_ok success
  refine ⟨sound.balances, sound.covered, sound.onAccount, fun entry member => ?_,
    fun t member settled => ?_⟩
  · obtain ⟨t, found, currency⟩ := sound.ofTransaction entry member
    exact ⟨t, Table.find?_insert_of_some found, currency⟩
  · simp only [Ledger.insertTransaction, List.mem_append, List.mem_singleton, not_or] at settled
    rcases (Table.mem_insert absent).mp member with old | rfl
    · obtain ⟨two, debits, credits⟩ := sound.settled t old settled.1
      exact ⟨two, debits, credits⟩
    · exact (settled.2 rfl).elim

/-! ## New entries -/

/-- What entries do to an account's balance. -/
def moved (account : LedgerAccount) (entries : List LedgerEntry) : Int :=
  (entries.map fun entry =>
    if entry.ledgerAccountId = account.id then account.signed entry.direction entry.amount
    else 0).sum

theorem moved_cons (account : LedgerAccount) (entry : LedgerEntry) (rest : List LedgerEntry) :
    moved account (entry :: rest) =
      (if entry.ledgerAccountId = account.id then account.signed entry.direction entry.amount
        else 0) + moved account rest := by
  simp [moved]

theorem moved_credited (account : LedgerAccount) (change : Int) (entries : List LedgerEntry) :
    moved (account.credited change) entries = moved account entries := rfl

/-- One entry moves its own account and no other. -/
theorem find?_applyBalance (accounts : Table LedgerAccount) (entry : LedgerEntry) (id : Uuid) :
    (applyBalance accounts entry).find? id =
      (accounts.find? id).map fun account =>
        account.credited (if entry.ledgerAccountId = account.id then
          account.signed entry.direction entry.amount else 0) := by
  unfold applyBalance
  cases target : accounts.find? entry.ledgerAccountId with
  | none =>
    cases found : accounts.find? id with
    | none => rfl
    | some account =>
      have same : account.id = id := (Table.find?_some found).2
      have other : ¬ entry.ledgerAccountId = account.id := by
        intro here
        rw [here, same, found] at target
        cases target
      simp [other]
  | some owner =>
    have own : owner.id = entry.ledgerAccountId := (Table.find?_some target).2
    have changed : key (owner.credited (owner.signed entry.direction entry.amount)) = owner.id := rfl
    dsimp only
    rw [Table.find?_replace, changed]
    by_cases here : owner.id = id
    · have found : accounts.find? id = some owner := by rw [← here, own, target]
      simp [here, found, own.symm.trans here]
    · cases found : accounts.find? id with
      | none => simp [here]
      | some account =>
        have same : account.id = id := (Table.find?_some found).2
        have other : ¬ entry.ledgerAccountId = account.id := by
          rw [same, ← own]
          exact here
        simp [here, other]

/-- All entries together move every account by what they say about it. -/
theorem find?_applyBalances (entries : List LedgerEntry) (accounts : Table LedgerAccount)
    (id : Uuid) : (entries.foldl applyBalance accounts).find? id =
      (accounts.find? id).map fun account => account.credited (moved account entries) := by
  induction entries generalizing accounts with
  | nil => simp [moved]
  | cons entry rest ih =>
    rw [List.foldl_cons, ih, find?_applyBalance, Option.map_map]
    simp only [Function.comp_def, moved_cons, moved_credited, LedgerAccount.credited_credited]

/-- The row-by-row check leaves every account that may not go negative at zero or more. -/
theorem covered_applyBalances {entries : List LedgerEntry} {accounts : Table LedgerAccount}
    (success : checkBalances entries accounts = .ok ())
    (covered : ∀ account ∈ accounts, account.allowNegativeBalance = false → 0 ≤ account.balance) :
    ∀ account ∈ entries.foldl applyBalance accounts,
      account.allowNegativeBalance = false → 0 ≤ account.balance := by
  induction entries generalizing accounts with
  | nil => exact covered
  | cons entry rest ih =>
    simp only [checkBalances] at success
    cases applied : checkApplied accounts entry with
    | error e => rw [applied] at success; cases success
    | ok _ =>
      rw [applied] at success
      refine ih success fun account member strict => ?_
      have found := Table.find?_of_mem member
      rw [find?_applyBalance] at found
      obtain ⟨old, before, rfl⟩ := Option.map_eq_some_iff.mp found
      have present := Table.find?_some before
      by_cases own : entry.ledgerAccountId = old.id
      · have owner : accounts.find? entry.ledgerAccountId = some old := by
          rw [own]
          exact Table.find?_of_mem present.1
        simp only [checkApplied, owner] at applied
        split_ifs at applied with range negative
        have strict' : old.allowNegativeBalance = false := strict
        simp only [strict', true_and, not_lt] at negative
        simpa [own, LedgerAccount.credited] using negative
      · have kept := covered old present.1 strict
        simpa [own, LedgerAccount.credited] using kept

/-- Checks made one after another all passed. -/
theorem forM_ok {ε α : Type} {items : List α} {f : α → Except ε Unit} :
    items.forM f = .ok () ↔ ∀ item ∈ items, f item = .ok () := by
  induction items with
  | nil => simp [pure, Except.pure]
  | cons first rest ih =>
    have unfold_cons : (first :: rest).forM f = (f first >>= fun _ => rest.forM f) := rfl
    rw [unfold_cons]
    cases one : f first with
    | error e => simp [bind, Except.bind, one]
    | ok value => simpa [bind, Except.bind, one] using ih

theorem forM_congr {ε α : Type} {items : List α} {f g : α → Except ε Unit}
    (same : ∀ item ∈ items, f item = g item) : items.forM f = items.forM g := by
  induction items with
  | nil => rfl
  | cons first rest ih =>
    change (f first >>= fun _ => rest.forM f) = (g first >>= fun _ => rest.forM g)
    rw [same first List.mem_cons_self, ih fun item later => same item (List.mem_cons_of_mem _ later)]

/-- What an accepted insert of entries has checked about each of them. -/
theorem checkEntry_ok {entry : LedgerEntry} (success : ledger.checkEntry entry = .ok ()) :
    (∃ account, ledger.accounts.find? entry.ledgerAccountId = some account ∧
      account.currency = entry.currency) ∧
    (∃ transaction, ledger.transactions.find? entry.ledgerTransactionId = some transaction ∧
      transaction.currency = entry.currency) := by
  unfold checkEntry at success
  split_ifs at success with range currencies amount
  simp only [not_or, not_not, Option.map_eq_some_iff] at currencies
  exact currencies

theorem checkNewEntries_ok {entries : List LedgerEntry}
    (success : ledger.checkNewEntries entries = .ok ()) :
    (∀ entry ∈ entries, ledger.checkEntry entry = .ok ()) ∧
      checkBalances entries ledger.accounts = .ok () := by
  unfold checkNewEntries at success
  cases first : entries.forM ledger.checkEntry with
  | error e => rw [first] at success; cases success
  | ok _ => rw [first] at success; exact ⟨forM_ok.mp first, success⟩

theorem entriesOn_append (ledger : Ledger) (entries : List LedgerEntry) (id : Uuid) :
    (ledger.insertEntries entries).entriesOn id =
      ledger.entriesOn id ++ entries.filter fun entry => entry.ledgerAccountId = id := by
  simp [entriesOn, insertEntries, List.filter_append]

theorem entriesOf_append (ledger : Ledger) (entries : List LedgerEntry) (id : Uuid) :
    (ledger.insertEntries entries).entriesOf id =
      ledger.entriesOf id ++ entries.filter fun entry => entry.ledgerTransactionId = id := by
  simp [entriesOf, insertEntries, List.filter_append]

theorem sum_filter_on (account : LedgerAccount) (entries : List LedgerEntry) :
    ((entries.filter fun entry => entry.ledgerAccountId = account.id).map fun entry =>
      account.signed entry.direction entry.amount).sum = moved account entries := by
  induction entries with
  | nil => rfl
  | cons entry rest ih =>
    rw [moved_cons, ← ih]
    by_cases own : entry.ledgerAccountId = account.id
    · simp [own]
    · simp [own]

theorem Sound.insertEntries (sound : ledger.Sound) {entries : List LedgerEntry}
    (success : ledger.checkNewEntries entries = .ok ()) : (ledger.insertEntries entries).Sound := by
  obtain ⟨checked, applied⟩ := checkNewEntries_ok success
  have accountOf : ∀ id, (ledger.insertEntries entries).accounts.find? id =
      (ledger.accounts.find? id).map fun account => account.credited (moved account entries) :=
    fun id => find?_applyBalances entries ledger.accounts id
  have known : ∀ entry ∈ ledger.entries ++ entries,
      (∃ account, ledger.accounts.find? entry.ledgerAccountId = some account ∧
        account.currency = entry.currency) ∧
      (∃ transaction, ledger.transactions.find? entry.ledgerTransactionId = some transaction ∧
        transaction.currency = entry.currency) := by
    intro entry member
    rcases List.mem_append.mp member with old | new
    · exact ⟨sound.onAccount entry old, sound.ofTransaction entry old⟩
    · exact checkEntry_ok (checked entry new)
  refine ⟨fun account member => ?_, covered_applyBalances applied sound.covered,
    fun entry member => ?_, fun entry member => (known entry member).2, fun t member settled => ?_⟩
  · have found := Table.find?_of_mem member
    rw [accountOf] at found
    obtain ⟨old, before, rfl⟩ := Option.map_eq_some_iff.mp found
    have balance := sound.balances old (Table.find?_some before).1
    have sums : (ledger.insertEntries entries).computedBalance (old.credited (moved old entries)) =
        ledger.computedBalance old + moved old entries := by
      unfold computedBalance
      rw [entriesOn_append, List.map_append, List.sum_append]
      exact congrArg _ (sum_filter_on old entries)
    rw [sums, ← balance]
    rfl
  · obtain ⟨account, found, currency⟩ := (known entry member).1
    refine ⟨account.credited (moved account entries), ?_, currency⟩
    rw [accountOf, found, Option.map_some]
  · simp only [Ledger.insertEntries, List.mem_append, List.mem_map, not_or, not_exists,
      not_and] at settled
    have none : (entries.filter fun entry => entry.ledgerTransactionId = t.id) = [] :=
      List.filter_eq_nil_iff.mpr fun entry present same =>
        settled.2 entry present (by simpa using same)
    have same : (ledger.insertEntries entries).entriesOf t.id = ledger.entriesOf t.id := by
      rw [entriesOf_append, none, List.append_nil]
    obtain ⟨two, debits, credits⟩ := sound.settled t member settled.1
    exact ⟨by rwa [same], by rwa [same], by rwa [same]⟩

/-! ## Commit -/

theorem checkBalanced_ok {id : Uuid} (success : ledger.checkBalanced id = .ok ()) :
    ∀ transaction, ledger.transactions.find? id = some transaction → ledger.Balanced transaction := by
  intro transaction found
  have same : transaction.id = id := (Table.find?_some found).2
  simp only [checkBalanced] at success
  split_ifs at success with unbalanced
  simp only [not_or, not_lt, not_not, found, Option.map_some, Option.some.injEq] at unbalanced
  obtain ⟨two, sides, amount⟩ := unbalanced
  subst same
  exact ⟨two, amount, sides.symm.trans amount⟩

/-- The deferred triggers make a sound ledger consistent. -/
theorem Sound.commit (sound : ledger.Sound) (success : ledger.checkDeferred = .ok ()) :
    ledger.clearDeferred.Consistent := by
  refine ⟨⟨sound.balances, sound.covered, sound.onAccount, sound.ofTransaction,
    fun t member _ => ?_⟩, rfl⟩
  have balanced : ledger.Balanced t := by
    by_cases queued : t.id ∈ ledger.deferred
    · exact checkBalanced_ok (forM_ok.mp success t.id queued) t (Table.find?_of_mem member)
    · exact sound.settled t member queued
  exact ⟨balanced.two, balanced.debits, balanced.credits⟩

/-! ## Reports -/

theorem Sound.findBalanceDiscrepancies (sound : ledger.Sound) :
    ledger.findBalanceDiscrepancies = [] := by
  apply List.filterMap_eq_nil_iff.mpr
  intro account member
  have balance := sound.balances account member
  unfold computedBalance LedgerAccount.signed at balance
  simp [← balance]

/-- An entry's amount as debits count it. -/
private def debitAmount (entry : LedgerEntry) : Int :=
  if entry.direction = .debit then entry.amount else -entry.amount

private theorem sum_debitAmount (entries : List LedgerEntry) :
    (entries.map debitAmount).sum = sideSum .debit entries - sideSum .credit entries := by
  induction entries with
  | nil => rfl
  | cons entry rest ih =>
    unfold sideSum at ih ⊢
    simp only [List.map_cons, List.sum_cons, ih]
    cases side : entry.direction <;> simp [debitAmount, side] <;> ring

/-- The entries of one currency. -/
private def entriesIn (ledger : Ledger) (currency : String) : List LedgerEntry :=
  ledger.entries.filter fun entry => entry.currency = currency

/-- Counted over the transactions, debits and credits of a currency cancel. -/
private theorem Consistent.sum_entriesIn (consistent : ledger.Consistent) (currency : String) :
    ((entriesIn ledger currency).map debitAmount).sum = 0 := by
  have known : ∀ entry ∈ entriesIn ledger currency,
      (ledger.transactions.find? entry.ledgerTransactionId).isSome := by
    intro entry member
    obtain ⟨t, found, _⟩ := consistent.ofTransaction entry (List.mem_of_mem_filter member)
    simp [found]
  rw [← Table.sum_join _ (fun entry => entry.ledgerTransactionId) debitAmount known,
    ← Table.sum_zero ledger.transactions]
  refine Table.sum_congr fun t member => ?_
  have settled : t.id ∉ ledger.deferred := by simp [consistent.nothingDeferred]
  have balanced := consistent.settled t member settled
  have ofT : ∀ entry ∈ ledger.entriesOf t.id, entry.currency = t.currency := by
    intro entry present
    obtain ⟨inside, same⟩ := List.mem_filter.mp present
    obtain ⟨t', found, currency⟩ := consistent.ofTransaction entry inside
    rw [decide_eq_true_eq.mp same] at found
    have self : ledger.transactions.find? t.id = some t := Table.find?_of_mem member
    rw [self] at found
    obtain rfl := Option.some.inj found
    exact currency.symm
  have swap : ((entriesIn ledger currency).filter fun entry => entry.ledgerTransactionId = key t)
      = (ledger.entriesOf t.id).filter fun entry => entry.currency = currency := by
    simp only [entriesIn, entriesOf, List.filter_filter]
    refine List.filter_congr fun entry _ => ?_
    rw [Bool.and_comm]
    rfl
  rw [swap]
  by_cases here : t.currency = currency
  · have all : ((ledger.entriesOf t.id).filter fun entry => entry.currency = currency)
        = ledger.entriesOf t.id :=
      List.filter_eq_self.mpr fun entry present => by simp [ofT entry present, here]
    rw [all, sum_debitAmount, balanced.debits, balanced.credits, sub_self]
  · have none : ((ledger.entriesOf t.id).filter fun entry => entry.currency = currency) = [] :=
      List.filter_eq_nil_iff.mpr fun entry present => by simp [ofT entry present, here]
    rw [none]
    rfl

/-- In every currency the debit-normal balances equal the credit-normal ones. -/
theorem Consistent.trialBalance (consistent : ledger.Consistent) (currency : String) :
    (ledger.trialBalance currency).1 = (ledger.trialBalance currency).2 := by
  have known : ∀ entry ∈ entriesIn ledger currency,
      (ledger.accounts.find? entry.ledgerAccountId).isSome := by
    intro entry member
    obtain ⟨account, found, _⟩ := consistent.onAccount entry (List.mem_of_mem_filter member)
    simp [found]
  have cancel := consistent.sum_entriesIn currency
  rw [← Table.sum_join _ (fun entry => entry.ledgerAccountId) debitAmount known] at cancel
  let side (direction : EntryDirection) (account : LedgerAccount) : Int :=
    if account.currency = currency ∧ account.normalBalance = direction then account.balance else 0
  have each : ∀ account ∈ ledger.accounts,
      (((entriesIn ledger currency).filter fun entry =>
        entry.ledgerAccountId = key account).map debitAmount).sum + side .credit account
        = side .debit account := by
    intro account member
    have on : ∀ entry ∈ ledger.entriesOn account.id, entry.currency = account.currency := by
      intro entry present
      obtain ⟨inside, same⟩ := List.mem_filter.mp present
      obtain ⟨a, found, currency⟩ := consistent.onAccount entry inside
      rw [decide_eq_true_eq.mp same] at found
      have self : ledger.accounts.find? account.id = some account := Table.find?_of_mem member
      rw [self] at found
      obtain rfl := Option.some.inj found
      exact currency.symm
    have swap : ((entriesIn ledger currency).filter fun entry =>
        entry.ledgerAccountId = key account)
        = (ledger.entriesOn account.id).filter fun entry => entry.currency = currency := by
      simp only [entriesIn, entriesOn, List.filter_filter]
      refine List.filter_congr fun entry _ => ?_
      rw [Bool.and_comm]
      rfl
    rw [swap]
    by_cases here : account.currency = currency
    · have all : ((ledger.entriesOn account.id).filter fun entry => entry.currency = currency)
          = ledger.entriesOn account.id :=
        List.filter_eq_self.mpr fun entry present => by simp [on entry present, here]
      have balance := consistent.balances account member
      rw [all]
      cases normal : account.normalBalance with
      | debit =>
        have same : ((ledger.entriesOn account.id).map debitAmount).sum = account.balance := by
          rw [balance]
          refine congrArg List.sum (List.map_congr_left fun entry _ => ?_)
          simp [LedgerAccount.signed, debitAmount, normal]
        simp [side, here, normal, same]
      | credit =>
        have opposite : ((ledger.entriesOn account.id).map debitAmount).sum = -account.balance := by
          rw [balance, computedBalance, List.sum_neg, List.map_map]
          refine congrArg List.sum (List.map_congr_left fun entry _ => ?_)
          cases direction : entry.direction <;>
            simp [LedgerAccount.signed, debitAmount, normal, direction]
        simp [side, here, normal, opposite]
    · have none : ((ledger.entriesOn account.id).filter fun entry => entry.currency = currency)
          = [] :=
        List.filter_eq_nil_iff.mpr fun entry present => by simp [on entry present, here]
      simp [none, side, here]
  have total := Table.sum_congr (t := ledger.accounts) each
  rw [Table.sum_add, cancel, zero_add] at total
  exact total.symm

end Ledger

end Finstack
