import Finstack.Soundness.Ledger.Consistency
import Finstack.Soundness.Ledger.PostWithin

/-! # The ledger after a posting

What a new posting leaves to be read: its transaction under its reference, its own entries, and
every account moved by what the posting says about it.
-/

namespace Finstack

open Foundation

namespace LedgerService

variable {id : Uuid} {input : PostingInput} {amount : Int} {ledger : Ledger}

/-- The stored entries move an account as the posting says. -/
theorem moved_newEntries (account : LedgerAccount) (transaction : LedgerTransaction)
    (entries : List PostingEntry) :
    Ledger.moved account (newEntries transaction entries) = delta account entries := by
  simp [Ledger.moved, newEntries, delta, Function.comp_def]

@[simp] theorem delta_credited (account : LedgerAccount) (change : Int)
    (entries : List PostingEntry) : delta (account.credited change) entries = delta account entries :=
  rfl

theorem posted_account (k : Uuid) : (posted id input amount ledger).accounts.find? k =
    (ledger.accounts.find? k).map fun account => account.credited (delta account input.entries) := by
  simp only [posted, Ledger.post, Ledger.insertEntries, Ledger.insertTransaction,
    Ledger.find?_applyBalances, moved_newEntries]

theorem accountsOf_posted (ids : List Uuid) : accountsOf (posted id input amount ledger) ids =
    (accountsOf ledger ids).map fun account => account.credited (delta account input.entries) := by
  simp only [accountsOf, posted_account, List.map_filterMap]

theorem posted_transaction (k : Uuid) : (posted id input amount ledger).transactions.find? k =
    (ledger.transactions.find? k).or
      (if id = k then some (newTransaction id input amount) else none) :=
  Table.find?_insert ledger.transactions (newTransaction id input amount) k

theorem posted_reference (absent : ledger.transactions.find? id = none) (reference : String) :
    (posted id input amount ledger).findTransactionByReference reference =
      (ledger.findTransactionByReference reference).or
        (if input.reference = reference then some (newTransaction id input amount) else none) :=
  Ledger.insertTransaction_reference (t := newTransaction id input amount) absent reference

theorem posted_reversal (absent : ledger.transactions.find? id = none) (original : Uuid) :
    (posted id input amount ledger).findReversalOf original =
      (ledger.findReversalOf original).or
        (if input.reversalOfId = some original then some (newTransaction id input amount)
          else none) :=
  Ledger.insertTransaction_reversal (t := newTransaction id input amount) absent original

/-- A new posting's entries are the ones it was given. -/
theorem posted_entriesOf (sound : ledger.Sound) (absent : ledger.transactions.find? id = none) :
    (posted id input amount ledger).entriesOf id =
      newEntries (newTransaction id input amount) input.entries := by
  have old : ledger.entriesOf id = [] := by
    refine List.filter_eq_nil_iff.mpr fun entry member same => ?_
    obtain ⟨t, found, _⟩ := sound.ofTransaction entry member
    rw [of_decide_eq_true same, absent] at found
    cases found
  have own : (newEntries (newTransaction id input amount) input.entries).filter
      (fun entry => entry.ledgerTransactionId = id) =
        newEntries (newTransaction id input amount) input.entries :=
    List.filter_eq_self.mpr fun entry member =>
      decide_eq_true (newEntries_ours (newTransaction id input amount) input.entries entry member)
  have before : (ledger.insertTransaction (newTransaction id input amount)).entriesOf id =
      ledger.entriesOf id := rfl
  rw [posted, Ledger.post, Ledger.entriesOf_append, before, old, own, List.nil_append]

theorem sideSum_newEntries (direction : EntryDirection) (transaction : LedgerTransaction)
    (entries : List PostingEntry) :
    Ledger.sideSum direction (newEntries transaction entries) = sideTotal direction entries := by
  simp [Ledger.sideSum, newEntries, sideTotal, Function.comp_def]

/-- A new posting's own entries balance. -/
theorem posted_checkBalanced (sound : ledger.Sound) (valid : ValidPosting input amount)
    (absent : ledger.transactions.find? id = none) :
    (posted id input amount ledger).checkBalanced id = .ok () := by
  have stored : (posted id input amount ledger).transactions.find? id =
      some (newTransaction id input amount) := by
    rw [posted_transaction, absent]
    simp
  have two := valid.two
  have length : (newEntries (newTransaction id input amount) input.entries).length =
      input.entries.length := List.length_map _
  simp only [Ledger.checkBalanced, posted_entriesOf sound absent, stored, sideSum_newEntries,
    valid.debits, valid.credits, length]
  simp [newTransaction, two.not_gt]

/-- A new posting passes the deferred checks of a transaction that has posted nothing else. -/
theorem posted_balanced (sound : ledger.Sound) (nothing : ledger.deferred = [])
    (valid : ValidPosting input amount) (absent : ledger.transactions.find? id = none) :
    (posted id input amount ledger).checkDeferred = .ok () := by
  refine Ledger.forM_ok.mpr fun queued member => ?_
  have own : queued = id := by
    simp only [posted, Ledger.post, Ledger.insertEntries, Ledger.insertTransaction, nothing,
      List.nil_append, List.mem_append, List.mem_singleton, List.mem_map] at member
    rcases member with same | ⟨entry, present, rfl⟩
    · exact same
    · exact newEntries_ours _ _ entry present
  rw [own]
  exact posted_checkBalanced sound valid absent

theorem assertCurrency_ok_iff {accounts : List LedgerAccount} {currency : String} :
    assertCurrency accounts currency = .ok () ↔ ∀ account ∈ accounts, account.currency = currency := by
  simp [assertCurrency]

/-- The funds check passes when every entry has its account and no account ends up negative. -/
theorem assertSufficientFunds_ok_iff {accounts : List LedgerAccount} {input : PostingInput} :
    assertSufficientFunds accounts input = .ok () ↔
      (∀ entry ∈ input.entries, ∃ account ∈ accounts, account.id = entry.accountId) ∧
        ∀ account ∈ accounts,
          account.allowNegativeBalance = true ∨ 0 ≤ account.balance + delta account input.entries := by
  unfold assertSufficientFunds
  cases missing : input.entries.find? fun entry =>
      ¬ (accounts.any fun account => account.id = entry.accountId) = true with
  | some entry =>
    have absent := List.find?_some missing
    have present := List.mem_of_find?_eq_some missing
    simp only [List.any_eq_true, decide_eq_true_eq, not_exists, not_and] at absent
    refine ⟨fun success => (nomatch success), fun ⟨known, _⟩ => ?_⟩
    obtain ⟨account, member, same⟩ := known entry present
    exact (absent account member same).elim
  | none =>
    have known : ∀ entry ∈ input.entries, ∃ account ∈ accounts, account.id = entry.accountId := by
      simpa using missing
    rw [ite_eq_right_iff]
    simp only [reduceCtorEq, imp_false, Bool.not_eq_true, List.any_eq_false]
    refine ⟨fun funds => ⟨known, fun account member => ?_⟩, fun ⟨_, funds⟩ account member => ?_⟩
    · have passed := funds account member
      cases allowed : account.allowNegativeBalance
      · simp [allowed] at passed
        exact .inr passed
      · exact .inl rfl
    · rcases funds account member with allowed | covered
      · simp [allowed]
      · simp [covered]

/-- A stored posting answers a repeated call. -/
theorem replayResult_posted {other : PostingInput} (currency : input.currency = other.currency)
    (description : input.description = other.description) (entries : input.entries = other.entries)
    (some_entries : 2 ≤ input.entries.length) :
    replayResult other (newTransaction id input amount)
      (newEntries (newTransaction id input amount) input.entries) =
        .ok ⟨newTransaction id input amount,
          newEntries (newTransaction id input amount) input.entries, true⟩ := by
  have back : (newEntries (newTransaction id input amount) input.entries).map postingEntry =
      other.entries := by
    rw [map_postingEntry_newEntries, entries]
  have nonempty : (newEntries (newTransaction id input amount) input.entries).isEmpty = false := by
    cases list : input.entries with
    | nil => simp [list] at some_entries
    | cons => rfl
  have same : (newTransaction id input amount).currency = other.currency ∧
      (newTransaction id input amount).description = other.description := ⟨currency, description⟩
  simp [replayResult, back, nonempty, same]

end LedgerService

end Finstack
