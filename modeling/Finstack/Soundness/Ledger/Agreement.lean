import Finstack.Soundness.Ledger.Posted

/-! # The application's checks against the database's

The service looks at what a posting does to each account as a whole; the database applies its
entries one after another, each under the column's range and the non-negative CHECK. Both accept
the same postings unless an account is taken where it may not be by some of its entries and brought
back by later ones.
-/

namespace Finstack

open Foundation LedgerService

namespace LedgerAccount

/-- A balance the column and the non-negative CHECK let the account have. -/
def Admits (account : LedgerAccount) (balance : Int) : Prop :=
  Ledger.inBigint balance = true ∧ (account.allowNegativeBalance = true ∨ 0 ≤ balance)

end LedgerAccount

namespace Ledger

variable {ledger : Ledger}

theorem checkApplied_ok_iff {accounts : Table LedgerAccount} {entry : LedgerEntry} :
    checkApplied accounts entry = .ok () ↔
      ∃ account, accounts.find? entry.ledgerAccountId = some account ∧
        account.Admits (account.balance + account.signed entry.direction entry.amount) := by
  unfold checkApplied
  cases accounts.find? entry.ledgerAccountId with
  | none => simp
  | some account =>
    simp only [Option.some.injEq, exists_eq_left', LedgerAccount.Admits]
    split_ifs with range negative
    · simp [negative]
    · refine iff_of_true rfl ⟨range, ?_⟩
      cases allowed : account.allowNegativeBalance
      · simp only [allowed, true_and, not_lt] at negative
        exact .inr negative
      · exact .inl rfl
    · simp [range]

/-- The balance trigger lets a list of entries through when each of them, applied after the ones
before it, leaves its account where it may be. -/
theorem checkBalances_ok_iff {entries : List LedgerEntry} {accounts : Table LedgerAccount} :
    checkBalances entries accounts = .ok () ↔
      ∀ before entry after, entries = before ++ entry :: after →
        ∃ account, accounts.find? entry.ledgerAccountId = some account ∧
          account.Admits (account.balance + moved account (before ++ [entry])) := by
  induction entries generalizing accounts with
  | nil => simp [checkBalances]
  | cons first rest ih =>
    have unfolded : checkBalances (first :: rest) accounts = .ok () ↔
        checkApplied accounts first = .ok () ∧
          checkBalances rest (applyBalance accounts first) = .ok () := by
      simp only [checkBalances]
      cases applied : checkApplied accounts first with
      | error e => simp [bind, Except.bind]
      | ok _ => simp [bind, Except.bind]
    rw [unfolded, checkApplied_ok_iff, ih]
    -- what the first entry has done is the head of what has been moved
    have shifted : ∀ before entry, (∃ account,
        (applyBalance accounts first).find? entry.ledgerAccountId = some account ∧
          account.Admits (account.balance + moved account (before ++ [entry]))) ↔
        ∃ account, accounts.find? entry.ledgerAccountId = some account ∧
          account.Admits (account.balance + moved account (first :: before ++ [entry])) := by
      intro before entry
      simp only [find?_applyBalance, Option.map_eq_some_iff]
      constructor
      · rintro ⟨_, ⟨account, found, rfl⟩, admits⟩
        refine ⟨account, found, ?_⟩
        rw [List.cons_append, moved_cons, ← add_assoc]
        exact admits
      · rintro ⟨account, found, admits⟩
        refine ⟨_, ⟨account, found, rfl⟩, ?_⟩
        rw [List.cons_append, moved_cons, ← add_assoc] at admits
        exact admits
    have own : ∀ account, accounts.find? first.ledgerAccountId = some account →
        moved account [first] = account.signed first.direction first.amount := by
      intro account found
      have same : first.ledgerAccountId = account.id := (Table.find?_some found).2.symm
      simp [moved, same]
    constructor
    · rintro ⟨⟨account, found, admits⟩, later⟩ before entry after split
      cases before with
      | nil =>
        obtain ⟨rfl, rfl⟩ := List.cons.inj split
        refine ⟨account, found, ?_⟩
        rw [List.nil_append, own account found]
        exact admits
      | cons head before =>
        obtain ⟨rfl, rfl⟩ := List.cons.inj split
        exact (shifted before entry).mp (later before entry after rfl)
    · intro all
      constructor
      · obtain ⟨account, found, admits⟩ := all [] first rest rfl
        rw [List.nil_append, own account found] at admits
        exact ⟨account, found, admits⟩
      · intro before entry after split
        exact (shifted before entry).mpr (all (first :: before) entry after (by rw [split]; rfl))

end Ledger

namespace LedgerService

variable {id : Uuid} {input : PostingInput} {amount : Int} {ledger : Ledger}

/-- The checks of the application, with every amount and every balance it computes in range. -/
structure Passes (input : PostingInput) (amount : Int) (ledger : Ledger) : Prop
    extends Covered input ledger where
  valid : validatePosting input = .ok amount
  amounts : ∀ entry ∈ input.entries, Ledger.inBigint entry.amount = true
  balances : ∀ account ∈ accountsOf ledger (postedIds input),
    Ledger.inBigint account.balance = true ∧
      Ledger.inBigint (account.balance + delta account input.entries) = true

/-- The checks of the database on a posting's entries: those of each row, the balance trigger with
the CHECK it meets, and the deferred triggers of its transaction. -/
structure DatabaseAccepts (id : Uuid) (input : PostingInput) (amount : Int) (ledger : Ledger) :
    Prop where
  entries : (ledger.insertTransaction (newTransaction id input amount)).checkNewEntries
    (newEntries (newTransaction id input amount) input.entries) = .ok ()
  deferred : (posted id input amount ledger).checkBalanced id = .ok ()

/-- The application and the database agree about a posting on a ledger. -/
structure Agrees (id : Uuid) (input : PostingInput) (ledger : Ledger) : Prop where
  accepts : ∀ amount, Passes input amount ledger → DatabaseAccepts id input amount ledger
  refuses : ∀ amount, assertSufficientFunds (accountsOf ledger (postedIds input)) input =
      .error insufficientFundsException →
    Ledger.checkBalances (newEntries (newTransaction id input amount) input.entries)
      ledger.accounts ≠ .ok ()

/-- Every entry, in the order given, leaves its account where it may be. -/
def Stepwise (input : PostingInput) (ledger : Ledger) : Prop :=
  ∀ before entry after, input.entries = before ++ entry :: after →
    ∀ account, ledger.accounts.find? entry.accountId = some account →
      account.Admits (account.balance + delta account (before ++ [entry]))

theorem mem_accountsOf {ids : List Uuid} {account : LedgerAccount} :
    account ∈ accountsOf ledger ids ↔
      account.id ∈ ids ∧ ledger.accounts.find? account.id = some account := by
  simp only [accountsOf, List.mem_filterMap, mem_lockOrder]
  constructor
  · rintro ⟨id, member, found⟩
    have same : account.id = id := (Table.find?_some found).2
    rw [same]
    exact ⟨member, found⟩
  · rintro ⟨member, found⟩
    exact ⟨account.id, member, found⟩

/-- Where the funds check passes every entry has its account. -/
theorem Covered.known (covered : Covered input ledger) {entry : PostingEntry}
    (member : entry ∈ input.entries) :
    ∃ account, ledger.accounts.find? entry.accountId = some account ∧
      account ∈ accountsOf ledger (postedIds input) := by
  obtain ⟨account, listed, same⟩ := (assertSufficientFunds_ok_iff.mp covered.funds).1 entry member
  rw [← same]
  exact ⟨account, (mem_accountsOf.mp listed).2, listed⟩

/-- The rows of an accepted posting pass their own checks. -/
theorem Passes.checkEntry (passes : Passes input amount ledger)
    (absent : ledger.transactions.find? id = none) :
    ∀ entry ∈ newEntries (newTransaction id input amount) input.entries,
      (ledger.insertTransaction (newTransaction id input amount)).checkEntry entry = .ok () := by
  intro row member
  obtain ⟨entry, present, rfl⟩ := List.mem_map.mp member
  obtain ⟨account, found, listed⟩ := passes.toCovered.known present
  have currency : account.currency = input.currency :=
    assertCurrency_ok_iff.mp passes.currency account listed
  have account' : (ledger.insertTransaction (newTransaction id input amount)).accounts.find?
      entry.accountId = some account := found
  have transaction' : (ledger.insertTransaction (newTransaction id input amount)).transactions.find?
      id = some (newTransaction id input amount) := Table.find?_insert_self absent
  have positive := (validatePosting_ok_iff.mp passes.valid).positive entry present
  simp only [Ledger.checkEntry, passes.amounts entry present, account', newTransaction_id,
    transaction', Option.map_some, currency]
  simp [newTransaction, positive.not_ge]

theorem checkBalances_newEntries_iff (known : ∀ entry ∈ input.entries,
      ∃ account, ledger.accounts.find? entry.accountId = some account)
    (transaction : LedgerTransaction) :
    Ledger.checkBalances (newEntries transaction input.entries) ledger.accounts = .ok () ↔
      Stepwise input ledger := by
  rw [Ledger.checkBalances_ok_iff]
  constructor
  · intro all before entry after split account found
    obtain ⟨account', found', admits⟩ := all (newEntries transaction before)
      ⟨transaction.id, entry.accountId, entry.direction, entry.amount, transaction.currency⟩
      (newEntries transaction after) (by rw [split]; simp [newEntries])
    obtain rfl := Option.some.inj (found'.symm.trans found)
    rw [← moved_newEntries account' transaction]
    simpa [newEntries] using admits
  · intro steps before row after split
    obtain ⟨first, rest, entries, rfl, split'⟩ := List.map_eq_append_iff.mp split
    obtain ⟨entry, last, rfl, rfl, rfl⟩ := List.map_eq_cons_iff.mp split'
    obtain ⟨account, found⟩ := known entry (by rw [entries]; simp)
    refine ⟨account, found, ?_⟩
    have admits := steps first entry last entries account found
    rw [← moved_newEntries account transaction] at admits
    simpa [newEntries] using admits

/-- A posting refused for funds would leave an account where the CHECK does not let it be. -/
theorem refused_by_database (sound : ledger.Sound)
    (refused : assertSufficientFunds (accountsOf ledger (postedIds input)) input =
      .error insufficientFundsException) (transaction : LedgerTransaction) :
    Ledger.checkBalances (newEntries transaction input.entries) ledger.accounts ≠ .ok () := by
  intro applied
  have passes : assertSufficientFunds (accountsOf ledger (postedIds input)) input = .ok () := by
    refine assertSufficientFunds_ok_iff.mpr ⟨fun entry member => ?_, fun account listed => ?_⟩
    · have split := List.append_of_mem member
      obtain ⟨before, after, split⟩ := split
      obtain ⟨account, found, _⟩ := Ledger.checkBalances_ok_iff.mp applied
        (newEntries transaction before)
        ⟨transaction.id, entry.accountId, entry.direction, entry.amount, transaction.currency⟩
        (newEntries transaction after) (by rw [split]; simp [newEntries])
      have same : account.id = entry.accountId := (Table.find?_some found).2
      refine ⟨account, mem_accountsOf.mpr ⟨?_, ?_⟩, same⟩
      · rw [same]
        exact List.mem_map_of_mem member
      · rw [same]
        exact found
    · cases allowed : account.allowNegativeBalance with
      | true => exact .inl rfl
      | false =>
        have found := (mem_accountsOf.mp listed).2
        have moved : account.credited (Ledger.moved account (newEntries transaction input.entries)) ∈
            (newEntries transaction input.entries).foldl Ledger.applyBalance ledger.accounts := by
          refine (Table.find?_some (k := account.id) ?_).1
          rw [Ledger.find?_applyBalances, found]
          rfl
        have kept := Ledger.covered_applyBalances applied sound.covered _ moved allowed
        rw [moved_newEntries] at kept
        exact .inr kept
  rw [passes] at refused
  cases refused

/-- The two agree unless a posting the application lets through has an entry that takes its account
where it may not be. -/
theorem agrees_iff (sound : ledger.Sound) (absent : ledger.transactions.find? id = none) :
    Agrees id input ledger ↔ ∀ amount, Passes input amount ledger → Stepwise input ledger := by
  have known : ∀ {amount}, Passes input amount ledger → ∀ entry ∈ input.entries,
      ∃ account, ledger.accounts.find? entry.accountId = some account := by
    intro amount passes entry member
    obtain ⟨account, found, _⟩ := passes.toCovered.known member
    exact ⟨account, found⟩
  constructor
  · intro agrees amount passes
    have accepted := (agrees.accepts amount passes).entries
    exact (checkBalances_newEntries_iff (known passes) _).mp (Ledger.checkNewEntries_ok accepted).2
  · intro stepwise
    refine ⟨fun amount passes => ⟨?_, ?_⟩, fun amount refused => refused_by_database sound refused _⟩
    · have rows := Ledger.forM_ok.mpr (passes.checkEntry absent)
      have balances := (checkBalances_newEntries_iff (known passes)
        (newTransaction id input amount)).mpr (stepwise amount passes)
      unfold Ledger.checkNewEntries
      rw [rows]
      exact balances
    · exact posted_checkBalanced sound (validatePosting_ok_iff.mp passes.valid) absent

/-! ## Postings with every account on one side -/

/-- No account is both debited and credited. -/
def OneSided (input : PostingInput) : Prop :=
  ∀ first ∈ input.entries, ∀ second ∈ input.entries,
    first.accountId = second.accountId → first.direction = second.direction

theorem delta_append (account : LedgerAccount) (first second : List PostingEntry) :
    delta account (first ++ second) = delta account first + delta account second := by
  simp [delta]

theorem delta_cons (account : LedgerAccount) (entry : PostingEntry) (rest : List PostingEntry) :
    delta account (entry :: rest) =
      (if entry.accountId = account.id then account.signed entry.direction entry.amount else 0) +
        delta account rest := by
  simp [delta]

/-- Entries that all move an account the same way move it that way together. -/
theorem delta_nonneg (account : LedgerAccount) {entries : List PostingEntry}
    (positive : ∀ entry ∈ entries, 0 < entry.amount)
    (grows : ∀ entry ∈ entries, entry.accountId = account.id →
      entry.direction = account.normalBalance) : 0 ≤ delta account entries := by
  induction entries with
  | nil => exact le_refl 0
  | cons entry rest ih =>
    have amount := positive entry List.mem_cons_self
    have later := ih (fun other member => positive other (List.mem_cons_of_mem _ member))
      fun other member => grows other (List.mem_cons_of_mem _ member)
    rw [delta_cons]
    split_ifs with own
    · rw [LedgerAccount.signed, if_pos (grows entry List.mem_cons_self own)]
      omega
    · omega

theorem delta_nonpos (account : LedgerAccount) {entries : List PostingEntry}
    (positive : ∀ entry ∈ entries, 0 < entry.amount)
    (shrinks : ∀ entry ∈ entries, entry.accountId = account.id →
      entry.direction ≠ account.normalBalance) : delta account entries ≤ 0 := by
  induction entries with
  | nil => exact le_refl 0
  | cons entry rest ih =>
    have amount := positive entry List.mem_cons_self
    have later := ih (fun other member => positive other (List.mem_cons_of_mem _ member))
      fun other member => shrinks other (List.mem_cons_of_mem _ member)
    rw [delta_cons]
    split_ifs with own
    · rw [LedgerAccount.signed, if_neg (shrinks entry List.mem_cons_self own)]
      omega
    · omega

/-- On one side an account moves from its first balance to its last without a detour. -/
theorem OneSided.stepwise (sided : OneSided input) (sound : ledger.Sound)
    (passes : Passes input amount ledger) : Stepwise input ledger := by
  intro before entry after split account found
  have positive := (validatePosting_ok_iff.mp passes.valid).positive
  have member : entry ∈ input.entries := by rw [split]; simp
  have own : account.id = entry.accountId := (Table.find?_some found).2
  have listed : account ∈ accountsOf ledger (postedIds input) := by
    rw [mem_accountsOf, own]
    exact ⟨List.mem_map_of_mem member, found⟩
  obtain ⟨first, last⟩ := passes.balances account listed
  have funds := (assertSufficientFunds_ok_iff.mp passes.funds).2 account listed
  have covered := sound.covered account (Table.find?_some found).1
  have whole : delta account input.entries =
      delta account (before ++ [entry]) + delta account after := by
    rw [← delta_append, split, List.append_assoc]
    rfl
  have same : ∀ other ∈ input.entries, other.accountId = account.id →
      other.direction = entry.direction :=
    fun other present here => sided other present entry member (here.trans own)
  have upto : ∀ other ∈ before ++ [entry], other ∈ input.entries := by
    intro other present
    rw [split]
    simp only [List.mem_append, List.mem_cons] at present ⊢
    tauto
  have later : ∀ other ∈ after, other ∈ input.entries := by
    intro other present
    rw [split]
    simp [present]
  -- the balance after this entry lies between the first and the last
  have between : account.balance ≤ account.balance + delta account (before ++ [entry]) ∧
        account.balance + delta account (before ++ [entry]) ≤
          account.balance + delta account input.entries ∨
      account.balance + delta account input.entries ≤
          account.balance + delta account (before ++ [entry]) ∧
        account.balance + delta account (before ++ [entry]) ≤ account.balance := by
    by_cases side : entry.direction = account.normalBalance
    · have one := delta_nonneg account (fun other present => positive other (upto other present))
        fun other present here => (same other (upto other present) here).trans side
      have two := delta_nonneg account (fun other present => positive other (later other present))
        fun other present here => (same other (later other present) here).trans side
      left
      omega
    · have one := delta_nonpos account (fun other present => positive other (upto other present))
        fun other present here => by rw [same other (upto other present) here]; exact side
      have two := delta_nonpos account (fun other present => positive other (later other present))
        fun other present here => by rw [same other (later other present) here]; exact side
      right
      omega
  simp only [Ledger.inBigint, Bool.and_eq_true, decide_eq_true_eq] at first last
  constructor
  · simp only [Ledger.inBigint, Bool.and_eq_true, decide_eq_true_eq]
    omega
  · rcases funds with allowed | enough
    · exact .inl allowed
    · cases allowed : account.allowNegativeBalance with
      | true => exact .inl rfl
      | false =>
        have := covered allowed
        right
        omega

/-- The two agree about every posting that debits or credits each of its accounts, never both. -/
theorem OneSided.agrees (sided : OneSided input) (sound : ledger.Sound)
    (absent : ledger.transactions.find? id = none) : Agrees id input ledger :=
  (agrees_iff sound absent).mpr fun _ => sided.stepwise sound

/-! ## A posting that passes through an empty account -/

/-- A wallet's account with nothing in it. -/
def emptyWallet : Ledger :=
  Ledger.empty.insertAccount
    (newAccount 1 { name := "Wallet", type := .liability, currency := "NGN" })

theorem emptyWallet_sound : emptyWallet.Sound :=
  Ledger.consistent_empty.insertAccount (by decide)

/-- Takes 100 out of the account and puts it back. -/
def outAndIn : PostingInput where
  reference := "move:1"
  description := "Out and in"
  currency := "NGN"
  entries := [⟨1, .debit, 100⟩, ⟨1, .credit, 100⟩]

theorem outAndIn_passes : Passes outAndIn 100 emptyWallet :=
  ⟨⟨by decide, by decide, by decide⟩, by decide, by decide, by decide⟩

/-- Its entries together leave the empty account as it was, and the first of them alone takes it
below zero. -/
theorem outAndIn_disagrees : emptyWallet.Sound ∧ emptyWallet.transactions.find? 2 = none ∧
    ¬ Agrees 2 outAndIn emptyWallet := by
  refine ⟨emptyWallet_sound, rfl, fun agrees => ?_⟩
  have accepted := (agrees.accepts 100 outAndIn_passes).entries
  have refused : (emptyWallet.insertTransaction (newTransaction 2 outAndIn 100)).checkNewEntries
      (newEntries (newTransaction 2 outAndIn 100) outAndIn.entries) =
        .error (.checkViolation "chk_ledger_accounts_non_negative") := by decide
  rw [refused] at accepted
  cases accepted

/-- In the other order the database lets the same entries through. -/
def inAndOut : PostingInput :=
  { outAndIn with entries := [⟨1, .credit, 100⟩, ⟨1, .debit, 100⟩] }

theorem inAndOut_agrees : Agrees 2 inAndOut emptyWallet := by
  refine (agrees_iff emptyWallet_sound rfl).mpr fun amount passes => ?_
  have accepted : (emptyWallet.insertTransaction (newTransaction 2 inAndOut 100)).checkNewEntries
      (newEntries (newTransaction 2 inAndOut 100) inAndOut.entries) = .ok () := by decide
  refine (checkBalances_newEntries_iff (fun entry member => ?_) _).mp
    (Ledger.checkNewEntries_ok accepted).2
  obtain ⟨account, found, _⟩ := passes.toCovered.known member
  exact ⟨account, found⟩

end LedgerService

end Finstack
