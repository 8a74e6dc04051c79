import Finstack.Soundness.Ledger.Guards
import Finstack.Soundness.Statements

/-! # What `postWithin` does

One rule for `postWithin`, whatever the discipline: where it returns a new posting the transaction
will have made exactly that posting, with every check true of the ledger it is made on; where it
throws, one of the listed reasons held of the view at that moment.
-/

namespace Finstack

open Foundation Discipline LedgerService

namespace LedgerService

/-- The accounts a posting's ids find, in lock order. -/
def accountsOf (ledger : Ledger) (ids : List Uuid) : List LedgerAccount :=
  (lockOrder ids).filterMap fun id => ledger.accounts.find? id

/-- The accounts an input posts to. -/
def postedIds (input : PostingInput) : List Uuid := input.entries.map (·.accountId)

/-- What the code checks of the locked accounts. -/
structure Covered (input : PostingInput) (ledger : Ledger) : Prop where
  found : (accountsOf ledger (postedIds input)).length = (lockOrder (postedIds input)).length
  currency : assertCurrency (accountsOf ledger (postedIds input)) input.currency = .ok ()
  funds : assertSufficientFunds (accountsOf ledger (postedIds input)) input = .ok ()

/-- What the code and the insert of the transaction have checked of a new posting. -/
structure Accepted (id : Uuid) (input : PostingInput) (amount : Int) (ledger : Ledger) : Prop
    extends Covered input ledger where
  valid : ValidPosting input amount
  transaction : ledger.checkNewTransaction (newTransaction id input amount) = .ok ()

/-- The checks of the code and of the database that a new posting has passed on a ledger. -/
structure Postable (id : Uuid) (input : PostingInput) (amount : Int) (ledger : Ledger) : Prop
    extends Accepted id input amount ledger where
  entries : (ledger.insertTransaction (newTransaction id input amount)).checkNewEntries
    (newEntries (newTransaction id input amount) input.entries) = .ok ()

/-- The ledger after a new posting. -/
def posted (id : Uuid) (input : PostingInput) (amount : Int) (ledger : Ledger) : Ledger :=
  ledger.post (newTransaction id input amount)
    (newEntries (newTransaction id input amount) input.entries)

/-- A posting made on one database, leaving another. -/
structure Posts (id : Uuid) (input : PostingInput) (amount : Int) (m b : Db) : Prop where
  postable : Postable id input amount m.ledger
  result : b = m.onLedger (posted id input amount)

/-- Why the code refuses to make a new posting. -/
inductive Refusal (id : Uuid) (input : PostingInput) (amount : Int) (ledger : Ledger) : Err → Prop
  | alreadyReversed {original} (reverses : input.reversalOfId = some original)
      (reversed : (ledger.findReversalOf original).isSome) :
      Refusal id input amount ledger transactionAlreadyReversedException
  | accounts {ids} (missing : (accountsOf ledger (postedIds input)).length ≠
      (lockOrder (postedIds input)).length) :
      Refusal id input amount ledger (ledgerAccountNotFoundError ids)
  | currency {e} (mixed : assertCurrency (accountsOf ledger (postedIds input)) input.currency =
      .error e) : Refusal id input amount ledger e
  | funds {e} (uncovered : assertSufficientFunds (accountsOf ledger (postedIds input)) input =
      .error e) : Refusal id input amount ledger e
  | transaction {e} (covered : Covered input ledger)
      (refused : ledger.checkNewTransaction (newTransaction id input amount) = .error e) :
      Refusal id input amount ledger (.database e)

end LedgerService

variable {D : Discipline Db} {G T : Db → Db → Prop}
  {E : Err → List RowLock → (Db → Db) → Db → Prop} {held : List RowLock} {pend : Db → Db} {c : Db}

/-! ## Locking the accounts -/

theorem guarded_account (id : Uuid) (row : Option LedgerAccount) :
    GuardedBy [RowLock.account id] fun db : Db => db.ledger.accounts.find? id = row := by
  intro c c' same found
  have own := same _ List.mem_cons_self
  simp only [Db.same_observed, Db.observe, Db.Observed.account.injEq] at own
  rw [← own.1, found]

/-- Rows locked one after another are all as they were read. -/
theorem runs_lockRows {ids : List Uuid}
    {R : List (Option LedgerAccount) → List RowLock → (Db → Db) → Db → Prop}
    (opened : D.Open held pend c T)
    (next : ∀ held' c', (∀ l ∈ held, l ∈ held') → (∀ id ∈ ids, RowLock.account id ∈ held') →
      D.Rely held c c' → D.Open held' pend c' T →
      R (ids.map fun id => (pend c').ledger.accounts.find? id) held' pend c') :
    D.Runs G E R (lockRows ids) held pend c := by
  induction ids generalizing held c R with
  | nil => exact next held c (fun _ member => member) (by simp) (.refl held c) opened
  | cons id rest ih =>
    refine runs_bind.mpr (runs_lock opened (fun row => guarded_account id row)
      fun c₁ _ rely₁ opened₁ => ?_)
    refine runs_bind.mpr (ih (opened₁.mono fun _ _ _ both => both.1)
      fun held' c₂ subset locked rely₂ opened₂ => ?_)
    have mine : RowLock.account id ∈ held' := subset _ List.mem_cons_self
    have more : ∀ l ∈ held, l ∈ held' := fun l member => subset l (List.mem_cons_of_mem _ member)
    have row : (pend c₁).ledger.accounts.find? id = (pend c₂).ledger.accounts.find? id :=
      (opened₁.writes.stays ((guarded_account id _).mono (by simp)) rfl rely₂).symm
    have all := next held' c₂ more
      (fun other member => by
        rcases List.mem_cons.mp member with rfl | later
        · exact mine
        · exact locked other later)
      (rely₁.trans (rely₂.anti fun l member => List.mem_cons_of_mem _ member)) opened₂
    rw [List.map_cons, ← row] at all
    exact all

theorem mem_lockOrder {ids : List Uuid} {id : Uuid} : id ∈ lockOrder ids ↔ id ∈ ids := by
  simp [lockOrder]

theorem nodup_lockOrder (ids : List Uuid) : (lockOrder ids).Nodup :=
  (List.perm_insertionSort (· ≤ ·) _).nodup_iff.mpr (List.nodup_dedup ids)

/-- All accounts found and locked, or an error. -/
theorem runs_lockAccounts {ids : List Uuid}
    {R : List LedgerAccount → List RowLock → (Db → Db) → Db → Prop}
    (opened : D.Open held pend c T)
    (missing : ∀ held' c' e, (∀ l ∈ held, l ∈ held') → D.Rely held c c' → D.Open held' pend c' T →
      (accountsOf (pend c').ledger ids).length ≠ (lockOrder ids).length →
      E (ledgerAccountNotFoundError e) held' pend c')
    (next : ∀ held' c', (∀ l ∈ held, l ∈ held') → (∀ id ∈ ids, RowLock.account id ∈ held') →
      D.Rely held c c' → D.Open held' pend c' T →
      (accountsOf (pend c').ledger ids).length = (lockOrder ids).length →
      R (accountsOf (pend c').ledger ids) held' pend c') :
    D.Runs G E R (lockAccounts ids) held pend c := by
  refine runs_bind.mpr (runs_lockRows opened fun held' c' subset locked rely opened' => ?_)
  have rows : ((lockOrder ids).map fun id => (pend c').ledger.accounts.find? id).filterMap id =
      accountsOf (pend c').ledger ids := by
    rw [List.filterMap_map]
    rfl
  dsimp only
  rw [rows]
  split_ifs with short
  · exact missing held' c' _ subset rely opened' short
  · exact next held' c' subset (fun id member => locked id (mem_lockOrder.mpr member)) rely opened'
      (not_not.mp short)

/-- What the checks of a posting look at is locked with its accounts. -/
theorem guarded_accountsOf (ids : List Uuid) (accounts : List LedgerAccount) :
    GuardedBy (ids.map RowLock.account) fun db : Db => accountsOf db.ledger ids = accounts := by
  intro c c' same found
  rw [← found]
  unfold accountsOf
  refine List.filterMap_congr fun id member => ?_
  have own := same _ (List.mem_map.mpr ⟨id, mem_lockOrder.mp member, rfl⟩)
  simp only [Db.same_observed, Db.observe, Db.Observed.account.injEq] at own
  exact own.1.symm

/-! ## Replays -/

/-- A replay answers from the stored transaction and its entries, read one after the other. -/
theorem runs_replay {input : PostingInput}
    {R : PostedTransaction → List RowLock → (Db → Db) → Db → Prop} (opened : D.Open held pend c T)
    (absent : ∀ c', D.inv c' → D.Rely held c c' → D.Open held pend c' T →
      (pend c').ledger.findTransactionByReference input.reference = none →
      E (.entityNotFound "LedgerTransaction") held pend c')
    (next : ∀ c₁ c₂ transaction, D.inv c₁ → D.inv c₂ → D.Rely held c c₁ → D.Rely held c₁ c₂ →
      (pend c₁).ledger.findTransactionByReference input.reference = some transaction →
      D.Open held pend c₂ T →
      Outcome E R (replayResult input transaction ((pend c₂).ledger.entriesOf transaction.id))
        held pend c₂) :
    D.Runs G E R (replay .transaction input) held pend c := by
  refine runs_bind.mpr (runs_read opened fun c₁ inv₁ rely₁ opened₁ => ?_)
  refine runs_bind.mpr (runs_orFail (absent c₁ inv₁ rely₁ opened₁) fun transaction found => ?_)
  refine runs_bind.mpr (runs_read opened₁ fun c₂ inv₂ rely₂ opened₂ => ?_)
  exact next c₁ c₂ transaction inv₁ inv₂ rely₁ rely₂ found opened₂

/-! ## New postings -/

theorem newEntries_ours (transaction : LedgerTransaction) (entries : List PostingEntry) :
    ∀ entry ∈ newEntries transaction entries, entry.ledgerTransactionId = transaction.id := by
  intro entry member
  obtain ⟨_, _, rfl⟩ := List.mem_map.mp member
  rfl

/-- After `assertNotReversed`. -/
private theorem runs_assertNotReversed {id : Uuid} {input : PostingInput} {amount : Int}
    {original : Uuid} {R : Unit → List RowLock → (Db → Db) → Db → Prop}
    (reverses : input.reversalOfId = some original) (opened : D.Open held pend c T)
    (refused : ∀ c' e, D.Rely held c c' → D.Open held pend c' T →
      Refusal id input amount (pend c').ledger e → E e held pend c')
    (next : ∀ c', D.Rely held c c' → D.Open held pend c' T → R () held pend c') :
    D.Runs G E R (assertNotReversed original) held pend c := by
  refine runs_bind.mpr (runs_read opened fun c' _ rely opened' => ?_)
  split_ifs with reversed
  · exact refused c' _ rely opened' (.alreadyReversed reverses reversed)
  · exact next c' rely opened'

/-- The writes of a posting that has only inserted its transaction. -/
abbrev transactionInserted (id : Uuid) (input : PostingInput) (amount : Int) : Db → Db :=
  Db.onLedger (Ledger.insertTransaction (newTransaction id input amount))

/-- A posting whose reference was found unused. -/
theorem runs_postNew {id : Uuid} {input : PostingInput} {amount : Int}
    {R : PostedTransaction → List RowLock → (Db → Db) → Db → Prop} (valid : ValidPosting input amount)
    (opened : D.Open held pend c T)
    (refused : ∀ held' c' e, (∀ l ∈ held, l ∈ held') → D.Rely held c c' →
      D.Open held' pend c' T → Refusal id input amount (pend c').ledger e → E e held' pend c')
    (unapplied : ∀ held' c' e, (∀ l ∈ held, l ∈ held') →
      (∀ l ∈ transactionLocks (newTransaction id input amount), l ∈ held') → D.Rely held c c' →
      D.Open held' (transactionInserted id input amount ∘ pend) c' (fun a b => ∃ m, T a m ∧
        Accepted id input amount m.ledger ∧ b = transactionInserted id input amount m) →
      Accepted id input amount (pend c').ledger →
      (transactionInserted id input amount (pend c')).ledger.checkNewEntries
        (newEntries (newTransaction id input amount) input.entries) = .error e →
      E (.database e) held' (transactionInserted id input amount ∘ pend) c')
    (next : ∀ held' c', (∀ l ∈ held, l ∈ held') →
      (∀ account ∈ postedIds input, RowLock.account account ∈ held') →
      (∀ l ∈ transactionLocks (newTransaction id input amount), l ∈ held') →
      D.inv c' → D.Rely held c c' →
      D.Open held' (Db.onLedger (posted id input amount) ∘ pend) c'
        (fun a b => ∃ m, T a m ∧ Posts id input amount m b) →
      R ⟨newTransaction id input amount,
        newEntries (newTransaction id input amount) input.entries, false⟩ held'
        (Db.onLedger (posted id input amount) ∘ pend) c') :
    D.Runs G E R (postNew id input amount) held pend c := by
  have reversal : ∀ {R' : Unit → List RowLock → (Db → Db) → Db → Prop},
      (∀ c', D.Rely held c c' → D.Open held pend c' T → R' () held pend c') →
      D.Runs G E R' (input.reversalOfId.forM assertNotReversed) held pend c := by
    intro R' after
    cases reverses : input.reversalOfId with
    | none => exact after c (.refl held c) opened
    | some original =>
      exact runs_assertNotReversed reverses opened
        (fun c' e rely here why => refused held c' e (fun _ member => member) rely here why) after
  refine runs_bind.mpr (reversal fun c₁ rely₁ opened₁ => ?_)
  refine runs_bind.mpr (runs_lockAccounts opened₁
    (fun held' c' e subset rely here missing =>
      refused held' c' _ subset (rely₁.trans rely) here (.accounts missing))
    fun held₂ c₂ subset locked rely₂ opened₂ found => ?_)
  have upto₂ : D.Rely held c c₂ := rely₁.trans rely₂
  refine runs_bind.mpr (runs_check
    (fun e mixed => refused held₂ c₂ e subset upto₂ opened₂ (.currency mixed)) fun currency => ?_)
  refine runs_bind.mpr (runs_check
    (fun e uncovered => refused held₂ c₂ e subset upto₂ opened₂ (.funds uncovered)) fun funds => ?_)
  -- the locked accounts stay as they were checked
  have accounts : GuardedBy held₂ fun db : Db =>
      accountsOf db.ledger (postedIds input) = accountsOf (pend c₂).ledger (postedIds input) :=
    (guarded_accountsOf (postedIds input) _).mono fun l member => by
      obtain ⟨account, posted, rfl⟩ := List.mem_map.mp member
      exact locked account posted
  have covered : ∀ m : Db,
      accountsOf m.ledger (postedIds input) = accountsOf (pend c₂).ledger (postedIds input) →
      Covered input m.ledger := by
    intro m same
    exact ⟨by rw [same]; exact found, by rw [same]; exact currency, by rw [same]; exact funds⟩
  have seen : ∀ c', D.Rely held₂ c₂ c' →
      accountsOf (pend c').ledger (postedIds input) =
        accountsOf (pend c₂).ledger (postedIds input) :=
    fun c' rely => opened₂.writes.stays accounts rfl rely
  let transaction := newTransaction id input amount
  let entries := newEntries transaction input.entries
  refine runs_bind.mpr (runs_checked (opened₂.saw accounts rfl)
    (writes_insertTransaction transaction) (guarded_checkNewTransaction transaction (.ok ()))
    (fun c' e _ rely failed => refused _ c' _ (fun l member => List.mem_append_right _
        (subset l member)) (upto₂.trans (rely.anti subset))
      (opened₂.later (fun l => List.mem_append_right _) rely)
      (.transaction (covered _ (seen c' rely)) failed))
    fun c₃ _ rely₃ passed₃ opened₃ => ?_)
  have subset₃ : ∀ l ∈ held, l ∈ transactionLocks transaction ++ held₂ :=
    fun l member => List.mem_append_right _ (subset l member)
  have upto₃ : D.Rely held c c₃ := upto₂.trans (rely₃.anti subset)
  have inserted₃ : D.Open (transactionLocks transaction ++ held₂)
      (transactionInserted id input amount ∘ pend) c₃ (fun a b => ∃ m, T a m ∧
        Accepted id input amount m.ledger ∧ b = transactionInserted id input amount m) := by
    refine opened₃.mono ?_
    rintro a b - ⟨m, ⟨done, same⟩, passed, rfl⟩
    exact ⟨m, done, ⟨covered m same, valid, passed⟩, rfl⟩
  refine runs_bind.mpr (runs_checked inserted₃
    (writes_insertEntries transaction (newEntries_ours transaction input.entries))
    (guarded_checkNewEntries transaction (newEntries_ours transaction input.entries) (.ok ()))
    (fun c' e _ rely failed => ?_) fun c₄ inv₄ rely₄ passed₄ opened₄ => ?_)
  · have wider : ∀ l ∈ held₂, l ∈ transactionLocks transaction ++ held₂ :=
      fun l => List.mem_append_right _
    have same := seen c' (rely₃.trans (rely.anti wider))
    have passed : (pend c').ledger.checkNewTransaction transaction = .ok () :=
      (opened₂.writes.mono wider).stays
        ((guarded_checkNewTransaction transaction (.ok ())).mono fun l => List.mem_append_left _)
        passed₃ rely
    exact unapplied _ c' e (fun l member => List.mem_append_right _ (subset₃ l member))
      (fun l member => List.mem_append_right _ (List.mem_append_left _ member))
      (upto₃.trans (rely.anti subset₃))
      (inserted₃.later (fun l => List.mem_append_right _) rely) ⟨covered _ same, valid, passed⟩ failed
  · refine next _ c₄ (fun l member => List.mem_append_right _ (subset₃ l member))
      (fun account posted => List.mem_append_right _
        (List.mem_append_right _ (locked account posted)))
      (fun l member => List.mem_append_right _ (List.mem_append_left _ member)) inv₄
      (upto₃.trans (rely₄.anti subset₃)) (opened₄.mono ?_)
    rintro a b - ⟨_, ⟨m, done, accepted, rfl⟩, applied, rfl⟩
    exact ⟨m, done, ⟨accepted, applied⟩, rfl⟩

/-- `postWithin`: a replay of what is stored, or a new posting. -/
theorem runs_postWithin {id : Uuid} {input : PostingInput}
    {R : PostedTransaction → List RowLock → (Db → Db) → Db → Prop} (opened : D.Open held pend c T)
    (invalid : ∀ e, validatePosting input = .error e → E e held pend c)
    (replayed : ∀ c₁ c₂ transaction, D.inv c₁ → D.inv c₂ → D.Rely held c c₁ → D.Rely held c₁ c₂ →
      (pend c₁).ledger.findTransactionByReference input.reference = some transaction →
      D.Open held pend c₂ T →
      Outcome E R (replayResult input transaction ((pend c₂).ledger.entriesOf transaction.id))
        held pend c₂)
    (vanished : ∀ c₁ c₂ transaction, D.inv c₁ → D.Rely held c c₁ → D.Rely held c₁ c₂ →
      (pend c₁).ledger.findTransactionByReference input.reference = some transaction →
      D.Open held pend c₂ T →
      (pend c₂).ledger.findTransactionByReference input.reference = none →
      E (.entityNotFound "LedgerTransaction") held pend c₂)
    (refused : ∀ c₁ held' c' amount e, ValidPosting input amount → D.inv c₁ → D.Rely held c c₁ →
      (pend c₁).ledger.findTransactionByReference input.reference = none →
      (∀ l ∈ held, l ∈ held') → D.Rely held c₁ c' → D.Open held' pend c' T →
      Refusal id input amount (pend c').ledger e → E e held' pend c')
    (unapplied : ∀ held' c' amount e, (∀ l ∈ held, l ∈ held') →
      (∀ l ∈ transactionLocks (newTransaction id input amount), l ∈ held') → D.Rely held c c' →
      D.Open held' (transactionInserted id input amount ∘ pend) c' (fun a b => ∃ m, T a m ∧
        Accepted id input amount m.ledger ∧ b = transactionInserted id input amount m) →
      Accepted id input amount (pend c').ledger →
      (transactionInserted id input amount (pend c')).ledger.checkNewEntries
        (newEntries (newTransaction id input amount) input.entries) = .error e →
      E (.database e) held' (transactionInserted id input amount ∘ pend) c')
    (next : ∀ held' c' amount, (∀ l ∈ held, l ∈ held') →
      (∀ account ∈ postedIds input, RowLock.account account ∈ held') →
      (∀ l ∈ transactionLocks (newTransaction id input amount), l ∈ held') →
      D.inv c' → D.Rely held c c' →
      D.Open held' (Db.onLedger (posted id input amount) ∘ pend) c'
        (fun a b => ∃ m, T a m ∧ Posts id input amount m b) →
      R ⟨newTransaction id input amount,
        newEntries (newTransaction id input amount) input.entries, false⟩ held'
        (Db.onLedger (posted id input amount) ∘ pend) c') :
    D.Runs G E R (postWithin id input) held pend c := by
  refine runs_bind.mpr ?_
  cases validated : validatePosting input with
  | error e => exact invalid e validated
  | ok amount =>
    have valid := validatePosting_ok_iff.mp validated
    refine runs_bind.mpr (runs_read opened fun c₁ inv₁ rely₁ opened₁ => ?_)
    cases existing : (pend c₁).ledger.findTransactionByReference input.reference with
    | some transaction =>
      refine runs_replay opened₁ (fun c' _ rely here gone =>
        vanished c₁ c' transaction inv₁ rely₁ rely existing here gone) ?_
      exact fun c₂ c₃ t inv₂ inv₃ rely₂ rely₃ found opened₃ =>
        replayed c₂ c₃ t inv₂ inv₃ (rely₁.trans rely₂) rely₃ found opened₃
    | none =>
      exact runs_postNew valid opened₁
        (fun held' c' e subset rely here why =>
          refused c₁ held' c' amount e valid inv₁ rely₁ existing subset rely here why)
        (fun held' c' e subset keys rely here accepted failed =>
          unapplied held' c' amount e subset keys (rely₁.trans rely) here accepted failed)
        fun held' c' subset accounts keys inv' rely done =>
          next held' c' amount subset accounts keys inv' (rely₁.trans rely) done

end Finstack
