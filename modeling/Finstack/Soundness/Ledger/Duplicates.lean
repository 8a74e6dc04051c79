import Finstack.Soundness.Ledger.LockOrder
import Finstack.Soundness.Ledger.Posted

/-! # Concurrent duplicates of one posting

Several calls post under one reference at once. The first to commit wins, and the unique index
makes the others replay what it posted. But a call that found the reference unused before the
winner committed checks the funds after it, on balances that carry the posting already: it replays
only when the accounts cover the posting a second time. Likewise a call that reverses the same
transaction as the winner finds it reversed.
-/

namespace Finstack

open Foundation Discipline LedgerService

/-- Two calls that a replay takes for the same posting. -/
structure Duplicate (a b : PostingInput) : Prop where
  reference : a.reference = b.reference
  currency : a.currency = b.currency
  description : a.description = b.description
  entries : a.entries = b.entries

/-- Calls for one posting that has not been made, each of which would succeed alone. -/
structure Race {n : Nat} (db : Db) (ids : Fin (n + 1) → Uuid)
    (inputs : Fin (n + 1) → PostingInput) (amount : Int) : Prop where
  consistent : db.ledger.Consistent
  distinct : Function.Injective ids
  duplicates : ∀ i j, Duplicate (inputs i) (inputs j)
  postable : ∀ i, Postable (ids i) (inputs i) amount db.ledger

/-- All calls end, none of them in an error; one of them posts, under the reference there is then
just its transaction, and the others replay it. -/
structure OnePosts {n : Nat}
    (start : Config Db RowLock (Fin (n + 1)) (Except Err PostedTransaction))
    (reference : String) : Prop where
  ends : ∀ run : Nat → Config Db RowLock (Fin (n + 1)) (Except Err PostedTransaction),
    run 0 = start → ¬ ∀ k, ∃ i, Config.Step i (run k) (run (k + 1))
  noError : ∀ σ, Config.Runs start σ → ∀ i e, ¬ σ.Returned i (.error e)
  outcome : ∀ σ, Config.Runs start σ → σ.Stuck → ∃ winner posting,
    σ.Returned winner (.ok posting) ∧ posting.replayed = false ∧
      (σ.committed.ledger.transactions.rows.filter fun t => t.reference = reference) =
        [posting.transaction] ∧
      ∀ j, j ≠ winner → ∃ replay, σ.Returned j (.ok replay) ∧ replay.replayed = true ∧
        replay.transaction = posting.transaction

/-- No posted account would become negative if the posting were made twice. -/
def CoversTwice (input : PostingInput) (ledger : Ledger) : Prop :=
  ∀ account ∈ accountsOf ledger (postedIds input),
    account.allowNegativeBalance = true ∨ 0 ≤ account.balance + 2 * delta account input.entries

instance (input : PostingInput) (ledger : Ledger) : Decidable (CoversTwice input ledger) :=
  inferInstanceAs (Decidable (∀ account ∈ _, _))

/-! ## The state the winner leaves -/

/-- The database after a posting of its own. -/
def afterPosting (id : Uuid) (input : PostingInput) (amount : Int) (db : Db) : Db :=
  db.onLedger fun ledger => (posted id input amount ledger).clearDeferred

section After

variable {id : Uuid} {input : PostingInput} {amount : Int} {db : Db}

theorem afterPosting_reference (postable : Postable id input amount db.ledger) :
    (afterPosting id input amount db).ledger.findTransactionByReference input.reference =
      some (newTransaction id input amount) := by
  obtain ⟨_, absent, unused, _⟩ := Ledger.checkNewTransaction_ok postable.transaction
  have found : (posted id input amount db.ledger).findTransactionByReference input.reference = _ :=
    posted_reference absent input.reference
  rw [newTransaction_reference] at unused
  rw [unused, if_pos rfl, Option.none_or] at found
  exact found

theorem afterPosting_ne (postable : Postable id input amount db.ledger) :
    afterPosting id input amount db ≠ db := by
  intro same
  have found := afterPosting_reference postable
  obtain ⟨_, _, unused, _⟩ := Ledger.checkNewTransaction_ok postable.transaction
  rw [newTransaction_reference] at unused
  rw [same, unused] at found
  cases found

theorem afterPosting_entriesOf (consistent : db.ledger.Consistent)
    (postable : Postable id input amount db.ledger) :
    (afterPosting id input amount db).ledger.entriesOf id =
      newEntries (newTransaction id input amount) input.entries := by
  obtain ⟨_, absent, _⟩ := Ledger.checkNewTransaction_ok postable.transaction
  exact posted_entriesOf consistent.toSound absent

theorem afterPosting_rows (postable : Postable id input amount db.ledger) :
    (afterPosting id input amount db).ledger.transactions.rows.filter
      (fun t => t.reference = input.reference) = [newTransaction id input amount] := by
  obtain ⟨_, absent, unused, _⟩ := Ledger.checkNewTransaction_ok postable.transaction
  have none_before : db.ledger.transactions.rows.filter
      (fun t => t.reference = input.reference) = [] :=
    List.filter_eq_nil_iff.mpr fun t member => List.find?_eq_none.mp unused t member
  have rows : (afterPosting id input amount db).ledger.transactions.rows =
      db.ledger.transactions.rows ++ [newTransaction id input amount] :=
    Table.rows_insert absent
  rw [rows, List.filter_append, none_before]
  simp [newTransaction]

/-- The same posting is no longer accepted: its reference is taken. -/
theorem refused_afterPosting {id' : Uuid} {input' : PostingInput}
    (postable : Postable id input amount db.ledger) (same : input.reference = input'.reference) :
    (afterPosting id input amount db).ledger.checkNewTransaction
      (newTransaction id' input' amount) ≠ .ok () := by
  intro success
  obtain ⟨_, _, unused, _⟩ := Ledger.checkNewTransaction_ok success
  rw [newTransaction_reference, ← same, afterPosting_reference postable] at unused
  cases unused

/-- What refuses it is the unique index on the reference. -/
theorem violation_afterPosting {id' : Uuid} {input' : PostingInput} {e : DatabaseError}
    (postable : Postable id input amount db.ledger)
    (postable' : Postable id' input' amount db.ledger) (other : id ≠ id')
    (same : input.reference = input'.reference)
    (refused : (afterPosting id input amount db).ledger.checkNewTransaction
      (newTransaction id' input' amount) = .error e) :
    e = .uniqueViolation "uq_ledger_transactions_reference" := by
  have taken : (afterPosting id input amount db).ledger.findTransactionByReference
      (newTransaction id' input' amount).reference = some (newTransaction id input amount) := by
    have found := afterPosting_reference postable
    rw [same] at found
    exact found
  have fresh : (afterPosting id input amount db).ledger.transactions.find?
      (newTransaction id' input' amount).id = none := by
    obtain ⟨_, absent, _⟩ := Ledger.checkNewTransaction_ok postable'.transaction
    have found : (posted id input amount db.ledger).transactions.find? id' = _ :=
      posted_transaction id'
    rw [newTransaction_id] at absent
    rw [absent, if_neg other, Option.none_or] at found
    exact found
  have before := postable'.transaction
  unfold Ledger.checkNewTransaction at before refused
  rw [taken, fresh] at refused
  split_ifs at before with text range currency amount
  rw [if_neg text, if_neg (not_not.mpr range), if_neg (not_not.mpr currency), if_neg amount]
    at refused
  simpa using refused.symm

theorem accountsOf_afterPosting (ids : List Uuid) :
    accountsOf (afterPosting id input amount db).ledger ids = (accountsOf db.ledger ids).map
      fun account => account.credited (delta account input.entries) :=
  accountsOf_posted ids

/-- After the posting the funds check passes again just when the accounts cover it twice. -/
theorem covered_afterPosting_iff {input' : PostingInput} (entries : input.entries = input'.entries)
    (covered : Covered input' db.ledger) :
    Covered input' (afterPosting id input amount db).ledger ↔ CoversTwice input' db.ledger := by
  have accounts : accountsOf (afterPosting id input amount db).ledger (postedIds input') = _ :=
    accountsOf_afterPosting (postedIds input')
  have found' : (accountsOf (afterPosting id input amount db).ledger (postedIds input')).length =
      (lockOrder (postedIds input')).length := by
    rw [accounts, List.length_map]
    exact covered.found
  have currency' : assertCurrency (accountsOf (afterPosting id input amount db).ledger
      (postedIds input')) input'.currency = .ok () := by
    have before := assertCurrency_ok_iff.mp covered.currency
    rw [assertCurrency_ok_iff, accounts]
    rintro _ member
    obtain ⟨account, present, rfl⟩ := List.mem_map.mp member
    exact before account present
  obtain ⟨known, _⟩ := assertSufficientFunds_ok_iff.mp covered.funds
  have again : ∀ account : LedgerAccount,
      (account.credited (delta account input'.entries)).balance +
        delta (account.credited (delta account input'.entries)) input'.entries =
          account.balance + 2 * delta account input'.entries := by
    intro account
    rw [delta_credited]
    change account.balance + delta account input'.entries + _ = _
    omega
  have funds' : assertSufficientFunds (accountsOf (afterPosting id input amount db).ledger
      (postedIds input')) input' = .ok () ↔ CoversTwice input' db.ledger := by
    rw [assertSufficientFunds_ok_iff, accounts, entries]
    constructor
    · rintro ⟨-, funds⟩ account member
      have passed := funds _ (List.mem_map_of_mem member)
      rwa [again] at passed
    · intro twice
      refine ⟨fun entry member => ?_, fun account member => ?_⟩
      · obtain ⟨account, present, own⟩ := known entry member
        exact ⟨_, List.mem_map_of_mem present, own⟩
      · obtain ⟨before, present, rfl⟩ := List.mem_map.mp member
        rw [again]
        exact twice before present
  exact ⟨fun after => funds'.mp after.funds, fun twice => ⟨found', currency', funds'.mpr twice⟩⟩

end After

/-! ## One call among the others -/

section Race

variable {n : Nat} {db : Db} {ids : Fin (n + 1) → Uuid} {inputs : Fin (n + 1) → PostingInput}
  {amount : Int}

/-- What call `i` leaves when it is the one that posts. -/
abbrev after (db : Db) (ids : Fin (n + 1) → Uuid) (inputs : Fin (n + 1) → PostingInput)
    (amount : Int) (i : Fin (n + 1)) : Db :=
  afterPosting (ids i) (inputs i) amount db

/-- One of these calls may post, once. -/
def raceDiscipline (db : Db) (ids : Fin (n + 1) → Uuid) (inputs : Fin (n + 1) → PostingInput)
    (amount : Int) (others : Fin (n + 1) → Prop) : Discipline Db where
  inv c := c = db ∨ ∃ w, c = after db ids inputs amount w
  change c c' := c = db ∧ ∃ w, others w ∧ c' = after db ids inputs amount w
  inv_change := fun _ ⟨_, w, _, same⟩ => .inr ⟨w, same⟩

/-- Call `i` posts, or nothing happens. -/
def racePromise (db : Db) (ids : Fin (n + 1) → Uuid) (inputs : Fin (n + 1) → PostingInput)
    (amount : Int) (i : Fin (n + 1)) (c c' : Db) : Prop :=
  c = db ∧ c' = after db ids inputs amount i

/-- Call `i` has posted, or replays what one of the others has posted. -/
def Settled (db : Db) (ids : Fin (n + 1) → Uuid) (inputs : Fin (n + 1) → PostingInput)
    (amount : Int) (others : Fin (n + 1) → Prop) (i : Fin (n + 1)) (p : PostedTransaction)
    (c : Db) : Prop :=
  (p.replayed = false ∧ p.transaction = newTransaction (ids i) (inputs i) amount ∧
    c = after db ids inputs amount i) ∨
  (p.replayed = true ∧ ∃ w, others w ∧
    p.transaction = newTransaction (ids w) (inputs w) amount ∧ c = after db ids inputs amount w)

/-- A call that loses to `w` after it found the reference unused passes its checks all the same. -/
def Survives (db : Db) (inputs : Fin (n + 1) → PostingInput) (i w : Fin (n + 1)) : Prop :=
  CoversTwice (inputs i) db.ledger ∧
    ∀ original, (inputs i).reversalOfId = some original → (inputs w).reversalOfId ≠ some original

variable {others : Fin (n + 1) → Prop} {i : Fin (n + 1)} {held : List RowLock} {c c' : Db}

theorem Race.rely_start
    (rely : (raceDiscipline db ids inputs amount others).Rely held db c') :
    c' = db ∨ ∃ w, others w ∧ c' = after db ids inputs amount w := by
  refine rely.stable (P := fun c => c = db ∨ ∃ w, others w ∧ c = after db ids inputs amount w) ?_
    (.inl rfl)
  rintro a b - ⟨-, ended⟩ -
  exact .inr ended

variable (race : Race db ids inputs amount)
include race

theorem Race.rely_after {w : Fin (n + 1)} (rely : (raceDiscipline db ids inputs amount others).Rely
    held (after db ids inputs amount w) c') : c' = after db ids inputs amount w := by
  refine rely.stable (P := fun c => c = after db ids inputs amount w) ?_ rfl
  rintro a b - ⟨start, -⟩ ended
  exact (afterPosting_ne (race.postable w) (ended.symm.trans start)).elim

/-- Whoever finds the reference used replays the posting. -/
theorem Race.replays (i w : Fin (n + 1)) : replayResult (inputs i)
    (newTransaction (ids w) (inputs w) amount)
    ((after db ids inputs amount w).ledger.entriesOf (ids w)) =
      .ok ⟨newTransaction (ids w) (inputs w) amount,
        newEntries (newTransaction (ids w) (inputs w) amount) (inputs w).entries, true⟩ := by
  have same := race.duplicates w i
  rw [afterPosting_entriesOf race.consistent (race.postable w)]
  exact replayResult_posted same.currency same.description same.entries (race.postable w).valid.two

theorem Race.absent (i : Fin (n + 1)) {t : LedgerTransaction}
    (found : db.ledger.findTransactionByReference (inputs i).reference = some t) : False := by
  obtain ⟨_, _, unused, _⟩ := Ledger.checkNewTransaction_ok (race.postable i).transaction
  exact nomatch (newTransaction_reference _ _ _ ▸ unused).symm.trans found

theorem Race.stored {i w : Fin (n + 1)} {t : LedgerTransaction}
    (found : (after db ids inputs amount w).ledger.findTransactionByReference
      (inputs i).reference = some t) : newTransaction (ids w) (inputs w) amount = t := by
  have stored := afterPosting_reference (race.postable w)
  rw [(race.duplicates w i).reference] at stored
  exact Option.some.inj (stored.symm.trans found)

/-- On the first state no call is refused. -/
theorem Race.accepts (i : Fin (n + 1)) {e : Err}
    (refusal : Refusal (ids i) (inputs i) amount db.ledger e) : False := by
  have postable := race.postable i
  cases refusal with
  | @alreadyReversed original reverses reversed =>
    obtain ⟨_, _, _, free⟩ := Ledger.checkNewTransaction_ok postable.transaction
    have free' : db.ledger.findReversalOf original = none := by
      simpa [newTransaction, reverses] using free
    rw [free'] at reversed
    cases reversed
  | accounts missing => exact missing postable.found
  | currency mixed => cases postable.currency.symm.trans mixed
  | funds uncovered => cases postable.funds.symm.trans uncovered
  | transaction _ refused => cases postable.transaction.symm.trans refused

/-- After somebody else has posted, a call that survives runs into the unique index. -/
theorem Race.loses {i w : Fin (n + 1)} (survives : Survives db inputs i w) (other : w ≠ i) {e : Err}
    (refusal : Refusal (ids i) (inputs i) amount (after db ids inputs amount w).ledger e) :
    e = .database (.uniqueViolation "uq_ledger_transactions_reference") := by
  have covered : Covered (inputs i) (after db ids inputs amount w).ledger :=
    (covered_afterPosting_iff (race.duplicates w i).entries
      (race.postable i).toCovered).mpr survives.1
  cases refusal with
  | @alreadyReversed original reverses reversed =>
    obtain ⟨_, absent, _, _⟩ := Ledger.checkNewTransaction_ok (race.postable w).transaction
    obtain ⟨_, _, _, free⟩ := Ledger.checkNewTransaction_ok (race.postable i).transaction
    have free' : db.ledger.findReversalOf original = none := by
      simpa [newTransaction, reverses] using free
    have found : (after db ids inputs amount w).ledger.findReversalOf original = _ :=
      posted_reversal absent original
    rw [free', if_neg (survives.2 original reverses), Option.none_or] at found
    rw [found] at reversed
    cases reversed
  | accounts missing => exact (missing covered.found).elim
  | currency mixed => cases covered.currency.symm.trans mixed
  | funds uncovered => cases covered.funds.symm.trans uncovered
  | transaction _ refused =>
    rw [violation_afterPosting (race.postable w) (race.postable i)
      (fun same => other (race.distinct same)) (race.duplicates w i).reference refused]

/-- A call is accepted on the first state only. -/
theorem Race.accepted_only {i : Fin (n + 1)}
    (known : c = db ∨ ∃ w, others w ∧ c = after db ids inputs amount w)
    (accepted : Accepted (ids i) (inputs i) amount c.ledger) : c = db := by
  rcases known with same | ⟨w, _, rfl⟩
  · exact same
  · exact (refused_afterPosting (race.postable w) (race.duplicates w i).reference
      accepted.transaction).elim

/-- The body of a call's transaction: it posts, replays, or runs into the unique index after
somebody else has posted. -/
theorem Race.body_runs (apart : ∀ w, others w → w ≠ i)
    (survives : ∀ w, others w → Survives db inputs i w) :
    (raceDiscipline db ids inputs amount others).Runs (racePromise db ids inputs amount i)
      (fun e _ _ c => e = .database (.uniqueViolation "uq_ledger_transactions_reference") ∧
        ∃ w, others w ∧ c = after db ids inputs amount w)
      (fun p held pend c =>
        (held = [] ∧ pend = id ∧ p.replayed = true ∧ ∃ w, others w ∧
          p.transaction = newTransaction (ids w) (inputs w) amount ∧
          c = after db ids inputs amount w) ∨
        (p.replayed = false ∧ p.transaction = newTransaction (ids i) (inputs i) amount ∧
          (raceDiscipline db ids inputs amount others).Rely [] db c ∧
          (raceDiscipline db ids inputs amount others).Open held pend c
            (Posts (ids i) (inputs i) amount)))
      (postWithin (ids i) (inputs i)) [] id db := by
  have valid : validatePosting (inputs i) = .ok amount :=
    validatePosting_ok_iff.mpr (race.postable i).valid
  have same_amount : ∀ {a : Int}, ValidPosting (inputs i) a → a = amount := by
    intro a other
    rw [← other.debits, (race.postable i).valid.debits]
  have invariant : ∀ {held : List RowLock} {c c' : Db},
      (raceDiscipline db ids inputs amount others).Rely held c c' →
      (raceDiscipline db ids inputs amount others).Rely [] c c' :=
    fun rely => rely.anti (by simp)
  refine runs_postWithin Open.start (fun e invalid => ?_)
    (fun c₁ c₂ transaction _ _ rely₁ rely₂ found _ => ?_)
    (fun c₁ c₂ transaction _ rely₁ rely₂ found _ gone => ?_)
    (fun c₁ held' c' a e other _ rely₁ unused _ rely _ refusal => ?_)
    (fun held' c' a e _ _ rely _ accepted failed => ?_)
    fun held' c' a subset _ _ inv rely done => ?_
  · rw [valid] at invalid
    cases invalid
  · rcases Race.rely_start rely₁ with rfl | ⟨w, other, rfl⟩
    · exact (race.absent i found).elim
    · obtain rfl := race.rely_after rely₂
      obtain rfl := race.stored found
      have answer := race.replays i w
      simp only [newTransaction_id, id_eq]
      rw [answer]
      exact .inl ⟨rfl, rfl, rfl, w, other, rfl, rfl⟩
  · rcases Race.rely_start rely₁ with rfl | ⟨w, other, rfl⟩
    · exact (race.absent i found).elim
    · obtain rfl := race.rely_after rely₂
      have stored := afterPosting_reference (race.postable w)
      rw [(race.duplicates w i).reference] at stored
      exact nomatch stored.symm.trans gone
  · obtain rfl := same_amount other
    rcases Race.rely_start (rely₁.trans rely) with rfl | ⟨w, loses, rfl⟩
    · exact (race.accepts i refusal).elim
    · exact ⟨race.loses (survives w loses) (apart w loses) refusal, w, loses, rfl⟩
  · obtain rfl := same_amount accepted.valid
    have start := race.accepted_only (Race.rely_start rely) accepted
    subst start
    exact nomatch (race.postable i).entries.symm.trans failed
  · obtain rfl := same_amount (done.now inv).choose_spec.2.postable.valid
    refine .inr ⟨rfl, rfl, rely, done.mono ?_⟩
    rintro a b - ⟨m, rfl, posts⟩
    exact posts

/-- The transaction of a call. -/
theorem Race.transaction_runs (apart : ∀ w, others w → w ≠ i)
    (survives : ∀ w, others w → Survives db inputs i w) :
    (raceDiscipline db ids inputs amount others).Runs (racePromise db ids inputs amount i)
      (fun e held pend c => held = [] ∧ pend = id ∧
        e = .database (.uniqueViolation "uq_ledger_transactions_reference") ∧
        ∃ w, others w ∧ c = after db ids inputs amount w)
      (fun p held pend c => held = [] ∧ pend = id ∧ Settled db ids inputs amount others i p c)
      (inTransaction (postWithin (ids i) (inputs i))) [] id db := by
  have rolledBack : ∀ (e : Err) (held : List RowLock) (pend : Db → Db) (c c' : Db),
      (raceDiscipline db ids inputs amount others).inv c' →
      (raceDiscipline db ids inputs amount others).Rely held c c' →
      (e = .database (.uniqueViolation "uq_ledger_transactions_reference") ∧
        ∃ w, others w ∧ c = after db ids inputs amount w) →
      [] = ([] : List RowLock) ∧ (id : Db → Db) = id ∧
        e = .database (.uniqueViolation "uq_ledger_transactions_reference") ∧
        ∃ w, others w ∧ c' = after db ids inputs amount w := by
    rintro e held pend c c' - rely ⟨same, w, other, rfl⟩
    exact ⟨rfl, rfl, same, w, other, race.rely_after rely⟩
  refine runs_transaction rolledBack (Runs.mono ?_ (fun _ _ _ _ lost => lost)
    (race.body_runs apart survives))
  rintro p held pend c (⟨rfl, rfl, replayed, w, other, transaction, rfl⟩ |
    ⟨fresh, transaction, upto, opened⟩)
  · -- a replay commits nothing
    refine runs_statement.mpr fun c₁ _ rely₁ => ?_
    obtain rfl := race.rely_after rely₁
    refine ⟨fun e failed => (nomatch failed), fun _ write passed c₂ _ rely₂ => ?_⟩
    obtain rfl : Db.onLedger Ledger.clearDeferred = write := (Prod.mk.inj (Except.ok.inj passed)).2
    obtain rfl := race.rely_after rely₂
    exact ⟨.inl rfl, rfl, rfl, .inr ⟨replayed, w, other, transaction, rfl⟩⟩
  · -- a new posting is checked and committed on the first state
    have start : ∀ c', (raceDiscipline db ids inputs amount others).inv c' →
        Posts (ids i) (inputs i) amount c' (pend c') → c' = db := fun c' inv posts =>
      have known : c' = db ∨ ∃ w, True ∧ c' = after db ids inputs amount w :=
        inv.imp_right fun ⟨w, same⟩ => ⟨w, trivial, same⟩
      race.accepted_only known posts.postable.toAccepted
    have checked : ∀ c', (raceDiscipline db ids inputs amount others).inv c' →
        Posts (ids i) (inputs i) amount c' (pend c') →
        (pend c').ledger.checkDeferred = .ok () := by
      intro c' inv posts
      obtain rfl := start c' inv posts
      obtain ⟨_, absent, _⟩ := Ledger.checkNewTransaction_ok posts.postable.transaction
      rw [posts.result]
      exact posted_balanced race.consistent.toSound race.consistent.nothingDeferred
        posts.postable.valid absent
    refine runs_statement.mpr fun c₁ inv₁ rely₁ => ?_
    have opened₁ := opened.later (fun _ member => member) rely₁
    have passed₁ := checked c₁ inv₁ (opened₁.now inv₁)
    rw [passed₁]
    refine ⟨fun e failed => (nomatch failed), fun _ write passed c₂ inv₂ rely₂ => ?_⟩
    obtain rfl : Db.onLedger Ledger.clearDeferred = write := (Prod.mk.inj (Except.ok.inj passed)).2
    have done := opened₁.wrote (P := fun _ => True) (fun _ _ _ _ => trivial) trivial
      (writes_clearDeferred.mono (by simp))
    have opened₂ := done.later (fun _ member => member) rely₂
    have result : Posts (ids i) (inputs i) amount c₂ (pend c₂) :=
      (opened₁.later (fun _ member => member) rely₂).now inv₂
    obtain rfl := start c₂ inv₂ result
    have leaves : Db.onLedger Ledger.clearDeferred (pend c₂) = after c₂ ids inputs amount i := by
      rw [result.result]
      rfl
    refine ⟨opened₂.allowed inv₂ fun _ => ?_, rfl, rfl, .inl ⟨fresh, transaction, leaves⟩⟩
    exact ⟨.inr ⟨i, leaves⟩, rfl, leaves⟩

/-- A whole call: it posts, or it replays what another call has posted. -/
theorem Race.call_runs (apart : ∀ w, others w → w ≠ i)
    (survives : ∀ w, others w → Survives db inputs i w) :
    (raceDiscipline db ids inputs amount others).Runs (racePromise db ids inputs amount i)
      (fun _ _ _ _ => False)
      (fun p held pend c => held = [] ∧ pend = id ∧ Settled db ids inputs amount others i p c)
      (post (ids i) (inputs i)) [] id db := by
  have valid : validatePosting (inputs i) = .ok amount :=
    validatePosting_ok_iff.mpr (race.postable i).valid
  refine runs_bind.mpr ?_
  rw [valid]
  refine runs_tryCatch (Runs.mono (fun _ _ _ _ done => done) ?_ (race.transaction_runs apart survives))
  rintro e held pend c ⟨rfl, rfl, rfl, w, other, rfl⟩
  -- the loser replays on a connection of its own
  have recovers : isUniqueViolation (.database (.uniqueViolation "uq_ledger_transactions_reference"))
      ["uq_ledger_transactions_reference"] = true := rfl
  unfold recoverPost
  rw [if_pos recovers]
  refine runs_bind.mpr (runs_queryCommitted.mpr fun c₁ _ rely₁ => ?_)
  obtain rfl := race.rely_after rely₁
  refine runs_bind.mpr (runs_orFail (fun absent => ?_) fun t found => ?_)
  · have stored := afterPosting_reference (race.postable w)
    rw [(race.duplicates w i).reference] at stored
    exact nomatch stored.symm.trans absent
  · obtain rfl := race.stored found
    refine runs_bind.mpr (runs_queryCommitted.mpr fun c₂ _ rely₂ => ?_)
    obtain rfl := race.rely_after rely₂
    rw [newTransaction_id, race.replays i w]
    exact ⟨rfl, rfl, .inr ⟨rfl, w, other, rfl, rfl⟩⟩

/-! ## All calls together -/

/-- What call `i` relies on: one of the other calls may post. The watcher sees any of them post. -/
abbrev raceDisciplines (db : Db) (ids : Fin (n + 1) → Uuid) (inputs : Fin (n + 1) → PostingInput)
    (amount : Int) (j : Option (Fin (n + 1))) : Discipline Db :=
  raceDiscipline db ids inputs amount fun w => some w ≠ j

/-- How call `i` ends. -/
abbrev raceEnds (db : Db) (ids : Fin (n + 1) → Uuid) (inputs : Fin (n + 1) → PostingInput)
    (amount : Int) (i : Fin (n + 1)) :
    Except Err PostedTransaction → List RowLock → (Db → Db) → Db → Prop :=
  Outcome (fun _ _ _ _ => False) fun p held pend c =>
    held = [] ∧ pend = id ∧ Settled db ids inputs amount (fun w => some w ≠ some i) i p c

theorem Race.compatible : Config.Compatible (raceDisciplines db ids inputs amount)
    (racePromise db ids inputs amount) (raceEnds db ids inputs amount) := by
  constructor
  · rintro i j c c' other - - ⟨start, ended⟩
    exact ⟨start, i, other.symm, ended⟩
  · rintro i (e | p) held pend c c' rely ends
    · exact ends
    · obtain ⟨held, pend, (⟨fresh, transaction, rfl⟩ | ⟨replayed, w, other, transaction, rfl⟩)⟩ := ends
      · exact ⟨held, pend, .inl ⟨fresh, transaction, race.rely_after rely⟩⟩
      · exact ⟨held, pend, .inr ⟨replayed, w, other, transaction, race.rely_after rely⟩⟩

theorem Race.sound (survives : ∀ i w, i ≠ w → Survives db inputs i w)
    {σ : Config Db RowLock (Fin (n + 1)) (Except Err PostedTransaction)}
    (run : Config.Runs (Config.start db fun i => post (ids i) (inputs i)) σ) :
    Config.Sound (raceDisciplines db ids inputs amount) (racePromise db ids inputs amount)
      (raceEnds db ids inputs amount) σ := by
  have apart : ∀ i w : Fin (n + 1), some w ≠ some i → w ≠ i := fun i w other same =>
    other (congrArg some same)
  have start : Config.Sound (raceDisciplines db ids inputs amount)
      (racePromise db ids inputs amount) (raceEnds db ids inputs amount)
      (Config.start db fun i => post (ids i) (inputs i)) :=
    .start (fun _ => .inl rfl) fun i =>
      race.call_runs (apart i) fun w other => survives i w (apart i w other).symm
  exact start.runs race.compatible run

theorem Race.after_inj {v w : Fin (n + 1)}
    (same : after db ids inputs amount v = after db ids inputs amount w) : v = w := by
  have stored : (after db ids inputs amount v).ledger.findTransactionByReference
      (inputs v).reference = _ := afterPosting_reference (race.postable v)
  rw [same] at stored
  have transactions := race.stored stored
  exact race.distinct (congrArg LedgerTransaction.id transactions).symm

/-- When every loser passes its checks again, one call posts and the others replay. -/
theorem Race.onePosts (survives : ∀ i w, i ≠ w → Survives db inputs i w) :
    OnePosts (Config.start db fun i => post (ids i) (inputs i)) (inputs 0).reference := by
  refine ⟨fun run _ steps => ?_, fun σ run i e returned => ?_, fun σ run stuck => ?_⟩
  · exact (wellFounded_iff_isEmpty_descending_chain.mp Config.step_wellFounded).false ⟨run, steps⟩
  · obtain ⟨held, pend, never⟩ := (race.sound survives run).returned returned
    exact never
  · have sound := race.sound survives run
    have ordered : Config.LocksInOrder RowLock.rank
        (Config.start db fun i => post (ids i) (inputs i)) := by
      rintro i s ⟨⟩
      exact post_ordered (ids i) (inputs i)
    have returned : ∀ i, ∃ p, σ.Returned i (.ok p) ∧
        Settled db ids inputs amount (fun w => some w ≠ some i) i p σ.committed := by
      intro i
      obtain ⟨s, running⟩ := run.present (i := i) ⟨_, rfl⟩
      obtain ⟨result, ended⟩ := Config.ended_of_stuck (ordered.runs run) stuck
        RowLock.rank_of_conflicts sound.apart running
      obtain ⟨prog, held, pend⟩ := s
      obtain rfl : prog = .ret result := ended
      obtain ⟨_, _, ends⟩ := sound.returned ⟨held, pend, running⟩
      cases result with
      | error e => exact ends.elim
      | ok p => exact ⟨p, ⟨held, pend, running⟩, ends.2.2⟩
    obtain ⟨w, posted⟩ : ∃ w, σ.committed = after db ids inputs amount w := by
      obtain ⟨_, _, (⟨_, _, same⟩ | ⟨_, w, _, _, same⟩)⟩ := returned 0
      · exact ⟨0, same⟩
      · exact ⟨w, same⟩
    obtain ⟨p, won, (⟨fresh, transaction, _⟩ | ⟨_, v, other, _, same⟩)⟩ := returned w
    · refine ⟨w, p, won, fresh, ?_, fun j other => ?_⟩
      · rw [posted, transaction, (race.duplicates 0 w).reference]
        exact afterPosting_rows (race.postable w)
      · obtain ⟨q, lost, (⟨_, _, same⟩ | ⟨replayed, v, _, theirs, same⟩)⟩ := returned j
        · exact (other (race.after_inj (same.symm.trans posted))).elim
        · obtain rfl := race.after_inj (same.symm.trans posted)
          exact ⟨q, lost, replayed, theirs.trans transaction.symm⟩
    · exact (other (congrArg some (race.after_inj (same.symm.trans posted)))).elim

/-! ## A loser that fails -/

/-- What a call does once it knows what its reference was used for. -/
def afterSearch (id : Uuid) (input : PostingInput) (amount : Int)
    (existing : Option LedgerTransaction) : DbTxn PostedTransaction :=
  Txn.tryCatch (inTransaction
    (if existing.isSome then replay .transaction input else postNew id input amount))
    (recoverPost input)

omit race in
/-- A call looks for its reference first. -/
theorem post_eq {uuid : Uuid} {input : PostingInput} (valid : validatePosting input = .ok amount) :
    post uuid input = Prog.stmt [] (fun _ => id) fun view =>
      afterSearch uuid input amount (view.ledger.findTransactionByReference input.reference) := by
  unfold post postWithin
  rw [valid]
  rfl

omit race in
/-- The checks of the code never look like the unique index. -/
theorem not_violation_of_checks {id : Uuid} {input : PostingInput} {ledger : Ledger} {e : Err}
    (refusal : Refusal id input amount ledger e) (uncovered : ¬ Covered input ledger) :
    isUniqueViolation e ["uq_ledger_transactions_reference"] = false := by
  cases refusal with
  | alreadyReversed reverses reversed => rfl
  | accounts missing => rfl
  | currency mixed =>
    unfold assertCurrency at mixed
    split_ifs at mixed
    obtain rfl := Except.error.inj mixed
    rfl
  | funds short =>
    unfold assertSufficientFunds at short
    split at short
    · obtain rfl := Except.error.inj short
      rfl
    · split_ifs at short
      obtain rfl := Except.error.inj short
      rfl
  | transaction covered refused => exact (uncovered covered).elim

/-- What a call does that found the reference unused before call `i` posted, and cannot survive. -/
theorem Race.loser_runs {i j : Fin (n + 1)} (fails : ¬ Survives db inputs j i) :
    (raceDiscipline db ids inputs amount fun _ => False).Runs (racePromise db ids inputs amount j)
      (fun _ _ _ _ => True) (fun _ _ _ _ => False)
      (afterSearch (ids j) (inputs j) amount none) [] id (after db ids inputs amount i) := by
  have same := race.duplicates i j
  have body : (raceDiscipline db ids inputs amount fun _ => False).Runs
      (racePromise db ids inputs amount j)
      (fun e _ _ _ => isUniqueViolation e ["uq_ledger_transactions_reference"] = false)
      (fun _ _ _ _ => False) (postNew (ids j) (inputs j) amount) []
      id (after db ids inputs amount i) := by
    by_cases shared : ∃ original, (inputs j).reversalOfId = some original ∧
        (inputs i).reversalOfId = some original
    · -- the winner has reversed the same transaction
      obtain ⟨original, reverses, theirs⟩ := shared
      refine runs_bind.mpr ?_
      rw [reverses]
      refine runs_bind.mpr (runs_query.mpr fun c _ rely => ?_)
      obtain rfl := race.rely_after rely
      obtain ⟨_, absent, _, _⟩ := Ledger.checkNewTransaction_ok (race.postable i).transaction
      have reversed : ((after db ids inputs amount i).ledger.findReversalOf original).isSome := by
        have found : (after db ids inputs amount i).ledger.findReversalOf original = _ :=
          posted_reversal absent original
        rw [found, if_pos theirs]
        cases db.ledger.findReversalOf original <;> rfl
      rw [id_eq, if_pos reversed]
      rfl
    · -- the accounts do not cover the posting again
      have uncovered : ¬ Covered (inputs j) (after db ids inputs amount i).ledger := by
        intro covered
        refine fails ⟨(covered_afterPosting_iff same.entries
          (race.postable j).toCovered).mp covered, fun original reverses theirs => ?_⟩
        exact shared ⟨original, reverses, theirs⟩
      refine runs_postNew (race.postable j).valid Open.start
        (fun _ c e _ rely _ refusal => ?_) (fun _ c e _ _ rely _ accepted _ => ?_)
        fun _ c _ _ _ inv rely done => ?_
      · obtain rfl := race.rely_after rely
        exact not_violation_of_checks refusal uncovered
      · obtain rfl := race.rely_after rely
        exact (uncovered accepted.toCovered).elim
      · obtain ⟨m, rfl, posts⟩ := done.now inv
        obtain rfl := race.rely_after rely
        exact uncovered posts.postable.toCovered
  refine runs_tryCatch (Runs.mono (fun _ _ _ _ never => never) ?_ (runs_transaction
    (E := fun e _ _ _ => isUniqueViolation e ["uq_ledger_transactions_reference"] = false)
    (fun _ _ _ _ _ _ _ other => other)
    (Runs.mono (fun _ _ _ _ never => never.elim) (fun _ _ _ _ other => other) body)))
  intro e held pend c other
  unfold recoverPost
  rw [other, if_neg (by simp)]
  split_ifs <;> trivial

/-- Two calls of which the second cannot survive the first: there is a run in which it fails. -/
theorem Race.loser_fails {i j : Fin (n + 1)} (other : i ≠ j) (fails : ¬ Survives db inputs j i) :
    ∃ σ e, Config.Runs (Config.start db fun i => post (ids i) (inputs i)) σ ∧
      σ.Returned j (.error e) := by
  have validated : ∀ k, validatePosting (inputs k) = .ok amount :=
    fun k => validatePosting_ok_iff.mpr (race.postable k).valid
  let tail := afterSearch (ids j) (inputs j) amount none
  have unused : db.ledger.findTransactionByReference (inputs j).reference = none := by
    cases found : db.ledger.findTransactionByReference (inputs j).reference with
    | none => rfl
    | some t => exact (race.absent j found).elim
  let start : Config Db RowLock (Fin (n + 1)) (Except Err PostedTransaction) :=
    Config.start db fun i => post (ids i) (inputs i)
  -- call `j` finds the reference unused
  have first : Config.Step j start (start.set j db ⟨tail, [], id⟩) := by
    refine .run (s := ⟨post (ids j) (inputs j), [], id⟩) rfl ?_ ?_
    · rw [post_eq (validated j)]
      intro k _ s _ l member
      cases member
    · have searched : afterSearch (ids j) (inputs j) amount
          (db.ledger.findTransactionByReference (inputs j).reference) = tail := by rw [unused]
      rw [post_eq (validated j), ← searched]
      rfl
  have unlocked : start.Unlocked := by
    rintro k s ⟨⟩
    rfl
  have unlocked₁ := unlocked.set j db (s := ⟨tail, [], id⟩) rfl
  -- call `i` runs to its end
  obtain ⟨result, held', pend', db', ends⟩ := (post_ordered (ids i) (inputs i)).alone id db
  have alone : (raceDiscipline db ids inputs amount fun _ => False).Runs _ _ _ _ _ _ _ :=
    race.call_runs (i := i) (by simp) (by simp)
  have settled := alone.alone (.inl rfl) ends
  obtain ⟨p, rfl⟩ : ∃ p, result = .ok p := by
    cases result with
    | error e => exact settled.elim
    | ok p => exact ⟨p, rfl⟩
  obtain ⟨rfl, rfl, (⟨_, _, rfl⟩ | ⟨_, _, never, _⟩)⟩ := settled
  · have second := Config.runs_alone (start.set j db ⟨tail, [], id⟩) (i := i) ends
      ((Config.set_sessions_ne _ _ _ other).trans rfl) (unlocked₁.idle i)
    have unlocked₂ := unlocked₁.set i (after db ids inputs amount i) (s := ⟨.ret (.ok p), [], id⟩) rfl
    -- call `j` goes on
    have ordered : Txn.Ordered RowLock.rank (fun _ held => held = []) tail [] := by
      have whole := post_ordered (ids j) (inputs j)
      rw [post_eq (validated j)] at whole
      have rest : Txn.Ordered RowLock.rank (fun _ held => held = []) (afterSearch (ids j) (inputs j)
        amount (db.ledger.findTransactionByReference (inputs j).reference)) [] := whole.2 db
      rw [unused] at rest
      exact rest
    obtain ⟨result', held'', pend'', db'', ends'⟩ := ordered.alone id (after db ids inputs amount i)
    have failed := (race.loser_runs fails).alone (.inr ⟨i, rfl⟩) ends'
    obtain ⟨e, rfl⟩ : ∃ e, result' = .error e := by
      cases result' with
      | error e => exact ⟨e, rfl⟩
      | ok p => exact failed.elim
    have third := Config.runs_alone _ (i := j) ends'
      ((Config.set_sessions_ne _ _ _ other.symm).trans (Config.set_sessions_self _ j _ _))
      (unlocked₂.idle j)
    exact ⟨_, e, .head ⟨j, first⟩ (second.trans third), _, _, Config.set_sessions_self _ j _ _⟩
  · exact never.elim

theorem Race.coversTwice (i j : Fin (n + 1)) :
    CoversTwice (inputs i) db.ledger ↔ CoversTwice (inputs j) db.ledger := by
  simp only [CoversTwice, postedIds, (race.duplicates i j).entries]

end Race

/-- Of concurrent duplicates one posts and the others replay it, in every interleaving, exactly
when there is only one call, or the accounts cover the posting twice and no two calls reverse the
same transaction. -/
theorem duplicates_onePosts_iff {n : Nat} {db : Db} {ids : Fin (n + 1) → Uuid}
    {inputs : Fin (n + 1) → PostingInput} {amount : Int} (race : Race db ids inputs amount) :
    OnePosts (Config.start db fun i => post (ids i) (inputs i)) (inputs 0).reference ↔
      n = 0 ∨ (CoversTwice (inputs 0) db.ledger ∧ ∀ i j, i ≠ j → ∀ original,
        (inputs i).reversalOfId = some original → (inputs j).reversalOfId ≠ some original) := by
  constructor
  · intro onePosts
    have survives : ∀ i j : Fin (n + 1), i ≠ j → Survives db inputs i j := by
      intro i j other
      by_contra fails
      obtain ⟨σ, e, run, returned⟩ := race.loser_fails other.symm fails
      exact onePosts.noError σ run i e returned
    cases n with
    | zero => exact .inl rfl
    | succ n =>
      refine .inr ⟨(survives 0 1 (by simp)).1, fun i j other original => ?_⟩
      exact (survives i j other).2 original
  · intro covered
    refine race.onePosts fun i w other => ?_
    rcases covered with rfl | ⟨twice, reversals⟩
    · exact (other (Fin.ext (by omega))).elim
    · exact ⟨(race.coversTwice i 0).mpr twice, reversals i w other⟩

/-! ## A wallet that is paid out twice at once -/

def clearingAccount : LedgerAccount :=
  newAccount 1 {
    name := "External clearing (NGN)"
    type := .asset
    currency := "NGN"
    allowNegativeBalance := true }

def walletAccount : LedgerAccount :=
  newAccount 2 { name := "Wallet", type := .liability, currency := "NGN" }

def openedAccounts : Ledger :=
  (Ledger.empty.insertAccount clearingAccount).insertAccount walletAccount

def deposit (amount : Int) : PostingInput where
  reference := "deposit:1"
  description := "Deposit"
  currency := "NGN"
  entries := [⟨1, .debit, amount⟩, ⟨2, .credit, amount⟩]

/-- A wallet that has received this amount. -/
def funded (amount : Int) : Db :=
  { Db.empty with ledger := (posted 3 (deposit amount) amount openedAccounts).clearDeferred }

theorem funded_consistent {amount : Int}
    (postable : Postable 3 (deposit amount) amount openedAccounts) :
    (funded amount).ledger.Consistent := by
  have accounts : openedAccounts.Consistent :=
    ⟨(Ledger.consistent_empty.insertAccount (by decide)).insertAccount (by decide), rfl⟩
  have sound : (posted 3 (deposit amount) amount openedAccounts).Sound :=
    (accounts.insertTransaction postable.transaction).insertEntries postable.entries
  exact sound.commit (posted_balanced accounts.toSound rfl postable.valid (by decide))

/-- The withdrawal that both calls post. -/
def withdrawal (_ : Fin 2) : PostingInput where
  reference := "withdrawal:1"
  description := "Withdrawal"
  currency := "NGN"
  entries := [⟨2, .debit, 400⟩, ⟨1, .credit, 400⟩]

def withdrawalIds (i : Fin 2) : Uuid := if i.val = 0 then 4 else 5

/-- The checks that both calls pass on the first state, evaluated. -/
theorem funded_race {amount : Int} (deposited : Postable 3 (deposit amount) amount openedAccounts)
    (covered : ∀ i, Covered (withdrawal i) (funded amount).ledger)
    (transaction : ∀ i, (funded amount).ledger.checkNewTransaction
      (newTransaction (withdrawalIds i) (withdrawal i) 400) = .ok ())
    (entries : ∀ i, ((funded amount).ledger.insertTransaction
        (newTransaction (withdrawalIds i) (withdrawal i) 400)).checkNewEntries
      (newEntries (newTransaction (withdrawalIds i) (withdrawal i) 400) (withdrawal i).entries) =
        .ok ()) : Race (funded amount) withdrawalIds withdrawal 400 :=
  have valid : ∀ i, validatePosting (withdrawal i) = .ok 400 := by decide
  ⟨funded_consistent deposited, by decide, fun _ _ => ⟨rfl, rfl, rfl, rfl⟩, fun i =>
    ⟨⟨covered i, validatePosting_ok_iff.mp (valid i), transaction i⟩, entries i⟩⟩

theorem race_of_once_covered : Race (funded 500) withdrawalIds withdrawal 400 :=
  funded_race
    ⟨⟨⟨by decide, by decide, by decide⟩, validatePosting_ok_iff.mp (by decide), by decide⟩, by decide⟩
    (fun i => ⟨by revert i; decide, by revert i; decide, by revert i; decide⟩) (by decide) (by decide)

theorem race_of_twice_covered : Race (funded 1000) withdrawalIds withdrawal 400 :=
  funded_race
    ⟨⟨⟨by decide, by decide, by decide⟩, validatePosting_ok_iff.mp (by decide), by decide⟩, by decide⟩
    (fun i => ⟨by revert i; decide, by revert i; decide, by revert i; decide⟩) (by decide) (by decide)

/-- Two withdrawals of 400 under one reference from a balance of 500: the second finds the reference
unused, waits for the first and fails for lack of funds. -/
theorem duplicates_once_covered : Race (funded 500) withdrawalIds withdrawal 400 ∧
    (∃ σ, Config.Runs (Config.start (funded 500) fun i => post (withdrawalIds i) (withdrawal i)) σ ∧
      σ.Returned 1 (.error insufficientFundsException)) ∧
    ¬ OnePosts (Config.start (funded 500) fun i => post (withdrawalIds i) (withdrawal i))
      "withdrawal:1" := by
  have ends : ((Config.start (funded 500) fun i => post (withdrawalIds i) (withdrawal i)).schedule
      [1, 0, 0, 0, 0, 0, 0, 0, 1, 1, 1]).bind (·.returned? 1) =
        some (.error insufficientFundsException) := by
    decide +kernel
  obtain ⟨σ, found, failed⟩ := Option.bind_eq_some_iff.mp ends
  have run := Config.schedule_sound found
  have returned := Config.returned?_sound failed
  exact ⟨race_of_once_covered, ⟨σ, run, returned⟩, fun onePosts => onePosts.noError σ run 1 _ returned⟩

/-- From a balance of 1000 one of them is made and the other replays it. -/
theorem duplicates_twice_covered :
    OnePosts (Config.start (funded 1000) fun i => post (withdrawalIds i) (withdrawal i))
      "withdrawal:1" :=
  (duplicates_onePosts_iff race_of_twice_covered).mpr
    (.inr ⟨by decide, fun _ _ _ _ reverses => nomatch reverses⟩)

end Finstack
