import Finstack.Soundness.Ledger.Duplicates
import Finstack.Soundness.Ledger.EveryRun

/-! # What an answered posting has recorded

A call that returns leaves under its reference a transaction of its currency, description and
entries, its own or one it takes for its own. Stored transactions never change and the indexes of
references and reversals stay unique. A replay does not compare what the two reverse: the stored
transaction has the call's reversal if and only if no look-alike was stored under its reference.
-/

namespace Finstack

open Foundation Discipline LedgerService

namespace Ledger

variable {ledger ledger' : Ledger} {input : PostingInput} {t : LedgerTransaction}

/-- The unique indexes find every row they list. -/
structure Indexed (ledger : Ledger) : Prop where
  references : ∀ t ∈ ledger.transactions, ledger.findTransactionByReference t.reference = some t
  reversals : ∀ t ∈ ledger.transactions, ∀ original, t.reversalOfId = some original →
    ledger.findReversalOf original = some t

/-- No transaction is reversed twice. -/
def OneReversal (ledger : Ledger) : Prop :=
  ∀ t ∈ ledger.transactions, ∀ t' ∈ ledger.transactions, ∀ original,
    t.reversalOfId = some original → t'.reversalOfId = some original → t = t'

theorem Indexed.oneReversal (indexed : ledger.Indexed) : ledger.OneReversal := by
  intro t member t' member' original reverses reverses'
  have first := indexed.reversals t member original reverses
  have second := indexed.reversals t' member' original reverses'
  exact Option.some.inj (first.symm.trans second)

theorem Indexed.insertTransaction (indexed : ledger.Indexed)
    (checked : ledger.checkNewTransaction t = .ok ()) : (ledger.insertTransaction t).Indexed := by
  obtain ⟨_, absent, unused, unreversed⟩ := checkNewTransaction_ok checked
  constructor
  · intro t' member
    rw [insertTransaction_reference absent]
    rcases (Table.mem_insert absent).mp member with old | rfl
    · rw [indexed.references t' old, Option.some_or]
    · rw [unused, Option.none_or, if_pos rfl]
  · intro t' member original reverses
    rw [insertTransaction_reversal absent]
    rcases (Table.mem_insert absent).mp member with old | rfl
    · rw [indexed.reversals t' old original reverses, Option.some_or]
    · rw [reverses, Option.bind_some] at unreversed
      rw [unreversed, Option.none_or, if_pos reverses]

/-- Stored transactions keep their row and their entries, and the indexes stay unique. -/
structure Extends (ledger ledger' : Ledger) : Prop where
  stored : ∀ {id t}, ledger.transactions.find? id = some t →
    ledger'.transactions.find? id = some t ∧ ledger'.entriesOf id = ledger.entriesOf id
  indexed : ledger.Indexed → ledger'.Indexed

theorem Extends.refl (ledger : Ledger) : ledger.Extends ledger :=
  ⟨fun found => ⟨found, rfl⟩, fun indexed => indexed⟩

theorem Extends.trans {first second third : Ledger} (one : first.Extends second)
    (two : second.Extends third) : first.Extends third := by
  refine ⟨fun found => ?_, fun indexed => two.indexed (one.indexed indexed)⟩
  obtain ⟨found', entries⟩ := one.stored found
  obtain ⟨found'', entries'⟩ := two.stored found'
  exact ⟨found'', entries'.trans entries⟩

/-- What is not a transaction or an entry does not matter. -/
theorem Extends.same {first second third : Ledger} (steps : first.Extends second)
    (transactions : third.transactions = second.transactions)
    (entries : third.entries = second.entries) : first.Extends third := by
  obtain ⟨accounts, rows, entered, deferred⟩ := third
  obtain rfl : rows = second.transactions := transactions
  obtain rfl : entered = second.entries := entries
  exact ⟨steps.stored, fun indexed =>
    ⟨(steps.indexed indexed).references, (steps.indexed indexed).reversals⟩⟩

theorem Extends.insertTransaction (steps : ledger.Extends ledger')
    (checked : ledger'.checkNewTransaction t = .ok ()) :
    ledger.Extends (ledger'.insertTransaction t) := by
  refine ⟨fun found => ?_, fun indexed => (steps.indexed indexed).insertTransaction checked⟩
  obtain ⟨found', entries⟩ := steps.stored found
  exact ⟨Table.find?_insert_of_some found', entries⟩

theorem Extends.posted {id : Uuid} {amount : Int} (steps : ledger.Extends ledger')
    (postable : Postable id input amount ledger') :
    ledger.Extends (posted id input amount ledger') := by
  have inserted := steps.insertTransaction postable.transaction
  obtain ⟨_, absent, _⟩ := checkNewTransaction_ok postable.transaction
  refine ⟨fun {id' t'} found => ?_, fun indexed => ?_⟩
  · obtain ⟨found', entries⟩ := inserted.stored found
    refine ⟨found', ?_⟩
    -- the new entries belong to the new transaction
    have none : (newEntries (newTransaction id input amount) input.entries).filter
        (fun entry => entry.ledgerTransactionId = id') = [] := by
      refine List.filter_eq_nil_iff.mpr fun entry member same => ?_
      have own := newEntries_ours _ _ entry member
      rw [of_decide_eq_true same, newTransaction_id] at own
      have here := (steps.stored found).1
      rw [own] at here
      exact Option.some_ne_none t' (here.symm.trans absent)
    rw [LedgerService.posted, Ledger.post, entriesOf_append, none, List.append_nil, entries]
  · obtain ⟨references, reversals⟩ := inserted.indexed indexed
    exact ⟨references, reversals⟩

/-- The stored transaction that a replay of the input takes for its own. -/
structure Matches (ledger : Ledger) (input : PostingInput) (t : LedgerTransaction) : Prop where
  stored : ledger.findTransactionByReference input.reference = some t
  currency : t.currency = input.currency
  description : t.description = input.description
  entries : entriesFingerprint ((ledger.entriesOf t.id).map postingEntry) =
    entriesFingerprint input.entries

/-- The stored transaction with the input's reference has the input's currency, description,
reversal and entries. -/
def Recorded (ledger : Ledger) (input : PostingInput) : Prop :=
  ∃ t, ledger.Matches input t ∧ t.reversalOfId = input.reversalOfId

/-- The stored transaction with the input's reference has the input's currency, description and
entries, and reverses another transaction, or none where the input reverses one. -/
def LookAlike (ledger : Ledger) (input : PostingInput) : Prop :=
  ∃ t, ledger.Matches input t ∧ t.reversalOfId ≠ input.reversalOfId

theorem Matches.unique {t' : LedgerTransaction} (one : ledger.Matches input t)
    (two : ledger.Matches input t') : t = t' :=
  Option.some.inj (one.stored.symm.trans two.stored)

theorem Recorded.not_lookAlike (recorded : ledger.Recorded input) : ¬ ledger.LookAlike input := by
  rintro ⟨t', other, differs⟩
  obtain ⟨t, own, same⟩ := recorded
  obtain rfl := own.unique other
  exact differs same

/-- Where a replay finds its transaction, only a look-alike is in the way. -/
theorem Matches.recorded_iff (found : ledger.Matches input t) :
    ledger.Recorded input ↔ ¬ ledger.LookAlike input := by
  refine ⟨Recorded.not_lookAlike, fun none => ⟨t, found, ?_⟩⟩
  by_contra differs
  exact none ⟨t, found, differs⟩

theorem Extends.reference (steps : ledger.Extends ledger') (indexed : ledger'.Indexed)
    {reference : String} (found : ledger.findTransactionByReference reference = some t) :
    ledger'.findTransactionByReference reference = some t := by
  have member : t ∈ ledger.transactions := List.mem_of_find?_eq_some found
  have same : t.reference = reference := by simpa using List.find?_some found
  obtain ⟨kept, _⟩ := steps.stored (Table.find?_of_mem member)
  rw [← same]
  exact indexed.references t (Table.find?_some kept).1

theorem Matches.extends (found : ledger.Matches input t) (steps : ledger.Extends ledger')
    (indexed : ledger'.Indexed) : ledger'.Matches input t := by
  have member : t ∈ ledger.transactions := List.mem_of_find?_eq_some found.stored
  refine ⟨steps.reference indexed found.stored, found.currency, found.description, ?_⟩
  have entries : ledger'.entriesOf t.id = ledger.entriesOf t.id :=
    (steps.stored (Table.find?_of_mem member)).2
  rw [entries]
  exact found.entries

theorem LookAlike.extends (found : ledger.LookAlike input) (steps : ledger.Extends ledger')
    (indexed : ledger'.Indexed) : ledger'.LookAlike input := by
  obtain ⟨t, found, differs⟩ := found
  exact ⟨t, found.extends steps indexed, differs⟩

/-- A replay that answers has found its transaction. -/
theorem matches_of_replayResult {answer : PostedTransaction}
    (stored : ledger.findTransactionByReference input.reference = some t)
    (success : replayResult input t (ledger.entriesOf t.id) = .ok answer) :
    answer.transaction = t ∧ ledger.Matches input t := by
  unfold replayResult at success
  split_ifs at success with differs empty
  obtain rfl := Except.ok.inj success
  simp only [not_or, not_not] at differs
  exact ⟨rfl, stored, differs.1, differs.2.1, differs.2.2⟩

/-- A new posting is recorded. -/
theorem Sound.matches_posted {id : Uuid} {amount : Int} (sound : ledger.Sound)
    (postable : Postable id input amount ledger) :
    (posted id input amount ledger).Matches input (newTransaction id input amount) := by
  obtain ⟨_, absent, unused, _⟩ := checkNewTransaction_ok postable.transaction
  rw [newTransaction_id] at absent
  rw [newTransaction_reference] at unused
  refine ⟨?_, rfl, rfl, ?_⟩
  · rw [posted_reference absent, unused, Option.none_or, if_pos rfl]
  · rw [newTransaction_id, posted_entriesOf sound absent, map_postingEntry_newEntries]

end Ledger

/-! ## Replies -/

/-- What a call of `post` asks for; a reversal asks for the mirror image of what is stored. -/
def PostCall.asks (ledger : Ledger) : PostCall → Option PostingInput
  | .post _ input _ => some input
  | .reverse _ transactionId reference description =>
    (ledger.transactions.find? transactionId).map fun original =>
      { reference
        description
        currency := original.currency
        reversalOfId := some original.id
        entries := mirrorEntries (ledger.entriesOf transactionId) }

theorem PostCall.asks_extends {ledger ledger' : Ledger} {call : PostCall} {input : PostingInput}
    (asked : call.asks ledger = some input) (steps : ledger.Extends ledger') :
    call.asks ledger' = some input := by
  cases call with
  | post => exact asked
  | reverse id transactionId reference description =>
    obtain ⟨original, found, rfl⟩ := Option.map_eq_some_iff.mp asked
    obtain ⟨kept, entries⟩ := steps.stored found
    simp only [PostCall.asks, kept, Option.map_some, entries]

/-- Every commit leaves a consistent ledger with unique indexes, and every stored transaction as it
was. -/
def recordDiscipline : Discipline Db where
  inv db := db.ledger.Consistent ∧ db.ledger.Indexed
  change db db' := (db'.ledger.Consistent ∧ db'.ledger.Indexed) ∧ db.ledger.Extends db'.ledger
  inv_change _ change := change.1

/-- Nobody else commits anything. -/
def frozenDiscipline : Discipline Db where
  inv db := db.ledger.Consistent ∧ db.ledger.Indexed
  change _ _ := False
  inv_change _ change := change.elim

namespace LedgerRun

/-- A discipline under which stored transactions stay. -/
structure Keeps (D : Discipline Db) : Prop where
  inv : ∀ {db : Db}, D.inv db ↔ db.ledger.Consistent ∧ db.ledger.Indexed
  change : ∀ {a b : Db}, D.inv a → D.change a b → a.ledger.Extends b.ledger

theorem recordDiscipline_keeps : Keeps recordDiscipline :=
  ⟨Iff.rfl, fun _ change => change.2⟩

theorem frozenDiscipline_keeps : Keeps frozenDiscipline :=
  ⟨Iff.rfl, fun _ change => change.elim⟩

variable {D : Discipline Db} {c₀ c c' : Db} {held : List RowLock} {pend : Db → Db}
  {input : PostingInput} {answer : PostedTransaction}

theorem Keeps.rely (keeps : Keeps D) (rely : D.Rely held c c') : c.ledger.Extends c'.ledger :=
  rely.lift (R := fun a b : Db => a.ledger.Extends b.ledger) (fun _ => .refl _)
    (fun one two => one.trans two) keeps.change

theorem Keeps.fits (keeps : Keeps D) : Fits D recordDiscipline.change Ledger.Extends where
  consistent inv := (keeps.inv.mp inv).1
  commits inv consistent steps :=
    have left := ⟨consistent, steps.indexed (keeps.inv.mp inv).2⟩
    ⟨keeps.inv.mpr left, left, steps⟩
  refl := .refl
  account steps _ := steps.same rfl rfl
  transaction steps checked := steps.insertTransaction checked
  posted steps postable := steps.posted postable
  cleared steps := steps.same rfl rfl

/-- Nothing changes under the frozen discipline. -/
theorem frozen_rely (rely : frozenDiscipline.Rely held c c') : c' = c := by
  induction rely with
  | refl => rfl
  | tail _ step _ => exact step.2.1.elim

/-- What an answer says about a state: the transaction is stored and is the input's own, or one that
others had stored by then. -/
structure Reply (D : Discipline Db) (c₀ : Db) (input : PostingInput) (answer : PostedTransaction)
    (c : Db) : Prop where
  extends_ : c₀.ledger.Extends c.ledger
  found : c.ledger.Matches input answer.transaction
  reverses : answer.transaction.reversalOfId = input.reversalOfId ∨ D.Rely [] c₀ c

/-- A replay that answers, from what others have committed since the start. -/
theorem Keeps.replied (keeps : Keeps D) {c₁ c₂ : Db} (inv : D.inv c₂) (since : D.Rely [] c₀ c₁)
    (rely : D.Rely held c₁ c₂) {t : LedgerTransaction}
    (stored : c₁.ledger.findTransactionByReference input.reference = some t)
    (success : replayResult input t (c₂.ledger.entriesOf t.id) = .ok answer) :
    Reply D c₀ input answer c₂ := by
  have upto : D.Rely [] c₀ c₂ := since.trans (rely.anti (by simp))
  have stored₂ := (keeps.rely rely).reference (keeps.inv.mp inv).2 stored
  obtain ⟨rfl, found⟩ := Ledger.matches_of_replayResult stored₂ success
  exact ⟨keeps.rely upto, found, .inr upto⟩

/-- A replay's answer stays what it is while others commit. -/
theorem Reply.later (keeps : Keeps D) (reply : Reply D c₀ input answer c)
    (inv : D.inv c') (rely : D.Rely held c c') : Reply D c₀ input answer c' := by
  have steps := keeps.rely rely
  exact ⟨reply.extends_.trans steps, reply.found.extends steps (keeps.inv.mp inv).2,
    reply.reverses.imp_right fun since => since.trans (rely.anti (by simp))⟩

/-- Nothing is queued between transactions. -/
theorem Keeps.cleared (keeps : Keeps D) (inv : D.inv c) : Db.onLedger Ledger.clearDeferred c = c := by
  have nothing := (keeps.inv.mp inv).1.nothingDeferred
  obtain ⟨clock, ⟨accounts, transactions, entries, deferred⟩, _⟩ := c
  obtain rfl : deferred = [] := nothing
  rfl

/-- `postWithin` in a transaction that has written nothing yet. -/
theorem Keeps.postWithin_replies (keeps : Keeps D) (id : Uuid) (since : D.Rely [] c₀ c)
    (opened : D.Open held (fun db => db) c Eq) :
    D.Runs recordDiscipline.change (fun _ _ _ c => D.Rely [] c₀ c)
      (fun answer held pend c => D.Rely [] c₀ c ∧ D.Open held pend c fun _ b =>
        Reply D c₀ input answer (Db.onLedger Ledger.clearDeferred b))
      (postWithin id input) held (fun db => db) c := by
  have upto : ∀ {held c'}, D.Rely held c c' → D.Rely [] c₀ c' :=
    fun rely => since.trans (rely.anti (by simp))
  refine runs_postWithin opened (fun _ _ => since)
    (fun c₁ c₂ t inv₁ inv₂ rely₁ rely₂ stored _ => ?_)
    (fun c₁ c₂ t _ rely₁ rely₂ _ _ _ => upto (rely₁.trans rely₂))
    (fun c₁ held' c' amount e _ _ rely₁ _ subset rely _ _ => upto (rely₁.trans rely))
    (fun held' c' amount e _ _ rely _ _ _ => upto rely)
    fun held' c' amount subset _ _ _ rely posts => ⟨upto rely, posts.writes, fun c'' inv later => ?_⟩
  · cases success : replayResult input t (c₂.ledger.entriesOf t.id) with
    | error e => exact upto (rely₁.trans rely₂)
    | ok answer =>
      have reply := keeps.replied inv₂ (upto rely₁) rely₂ stored success
      refine ⟨upto (rely₁.trans rely₂), Writes.id _, fun c' inv' later => ?_⟩
      rw [keeps.cleared inv']
      exact reply.later keeps inv' later
  · obtain ⟨m, rfl, postable, result⟩ := posts.does c'' inv later
    rw [result]
    have steps := (keeps.rely (upto (rely.trans (later.anti subset)))).posted postable
    have found := (keeps.inv.mp inv).1.toSound.matches_posted postable
    exact ⟨steps.same rfl rfl, ⟨found.stored, found.currency, found.description, found.entries⟩,
      .inl rfl⟩

/-- A preparation leaves a transaction that has written nothing. -/
theorem Preparation.runs (preparation : Preparation) (since : D.Rely [] c₀ c)
    (opened : D.Open held (fun db => db) c Eq) :
    D.Runs recordDiscipline.change
      (fun _ held pend c => pend = (fun db => db) ∧ D.Rely [] c₀ c ∧ D.Open held pend c Eq)
      (fun _ held pend c => pend = (fun db => db) ∧ D.Rely [] c₀ c ∧ D.Open held pend c Eq)
      preparation.body held (fun db => db) c := by
  induction preparation generalizing held c with
  | done result => cases result <;> exact ⟨rfl, since, opened⟩
  | look locks next ih =>
    refine runs_bind.mpr (runs_select.mpr fun c' _ rely => ?_)
    exact ih c' (since.trans (rely.anti (by simp)))
      (opened.later (fun l => List.mem_append_right locks) rely)

theorem Keeps.unwritten (keeps : Keeps D) (opened : D.Open held pend c Eq) :
    InTransaction D Ledger.Extends held pend c := by
  refine ⟨[], by simp, opened.mono ?_⟩
  rintro a _ inv rfl
  have consistent := (keeps.inv.mp inv).1
  exact ⟨consistent.toSound, consistent.nothingDeferred, .refl _⟩

theorem Keeps.body_replies (keeps : Keeps D) (id : Uuid) (preparation : Preparation)
    (since : D.Rely [] c₀ c) :
    D.Runs recordDiscipline.change
      (fun _ held pend c => InTransaction D Ledger.Extends held pend c ∧ D.Rely [] c₀ c)
      (fun answer held pend c => InTransaction D Ledger.Extends held pend c ∧ D.Rely [] c₀ c ∧
        D.Open held pend c fun _ b =>
          Reply D c₀ input answer (Db.onLedger Ledger.clearDeferred b))
      (preparation.body >>= fun _ => postWithin id input) [] (fun db => db) c := by
  refine runs_bind.mpr (Runs.mono ?_ ?_ (Preparation.runs preparation since Open.start))
  · rintro _ held pend c ⟨rfl, since, opened⟩
    refine Runs.mono ?_ ?_ (Runs.and (keeps.fits.postWithin id input held _ c (keeps.unwritten opened))
      (keeps.postWithin_replies id since opened))
    · exact fun _ _ _ _ both => ⟨both.1, both.2⟩
    · exact fun _ _ _ _ both => both
  · rintro _ held pend c ⟨rfl, since, opened⟩
    exact ⟨keeps.unwritten opened, since⟩

/-- A replay on a connection of its own. -/
theorem Keeps.replay_replies (keeps : Keeps D) (since : D.Rely [] c₀ c) :
    D.Runs recordDiscipline.change (fun _ => Between)
      (fun answer held pend c => Between held pend c ∧ Reply D c₀ input answer c)
      (replay .dataSource input) [] (fun db => db) c := by
  refine runs_bind.mpr (runs_queryCommitted.mpr fun c₁ _ rely₁ => ?_)
  refine runs_bind.mpr (runs_orFail (fun _ => ⟨rfl, rfl⟩) fun t stored => ?_)
  refine runs_bind.mpr (runs_queryCommitted.mpr fun c₂ inv₂ rely₂ => ?_)
  cases success : replayResult input t (c₂.ledger.entriesOf t.id) with
  | error e => exact ⟨rfl, rfl⟩
  | ok answer =>
    exact ⟨⟨rfl, rfl⟩, keeps.replied inv₂ (since.trans rely₁) rely₂ stored success⟩

/-- A call of `post`: every way it has of answering, on the first reading of the reference, after
its own posting, and after another posting has taken the reference. -/
theorem Keeps.post_replies (keeps : Keeps D) (id : Uuid) (preparation : Preparation)
    (since : D.Rely [] c₀ c) :
    D.Runs recordDiscipline.change (fun _ => Between)
      (fun answer held pend c => Between held pend c ∧ Reply D c₀ input answer c)
      (post id input preparation.body) [] (fun db => db) c := by
  refine runs_bind.mpr ?_
  cases validatePosting input with
  | error e => exact ⟨rfl, rfl⟩
  | ok amount =>
    refine runs_tryCatch (Runs.mono (fun _ _ _ _ done => done) ?_
      (keeps.fits.runs_inTransaction (S := fun c => D.Rely [] c₀ c)
        (R := fun answer c => Reply D c₀ input answer c)
        (fun rely since => since.trans (rely.anti (by simp)))
        (keeps.body_replies id preparation since)))
    rintro e held pend c ⟨⟨rfl, rfl⟩, since⟩
    unfold recoverPost
    split_ifs
    · exact keeps.replay_replies since
    · exact ⟨rfl, rfl⟩
    · exact ⟨rfl, rfl⟩

/-- Any call that answers with a transaction. -/
theorem Keeps.call_replies (keeps : Keeps D) (call : PostCall) :
    D.Runs recordDiscipline.change (fun _ => Between)
      (fun answer held pend c => Between held pend c ∧ ∃ input c', D.Rely [] c₀ c' ∧
        call.asks c'.ledger = some input ∧ Reply D c' input answer c)
      call.run [] (fun db => db) c₀ := by
  cases call with
  | post id input preparation =>
    refine Runs.mono ?_ (fun _ _ _ _ here => here)
      (keeps.post_replies id preparation (.refl [] c₀))
    exact fun answer held pend c done => ⟨done.1, input, c₀, .refl [] c₀, rfl, done.2⟩
  | reverse id transactionId reference description =>
    refine runs_bind.mpr (runs_queryCommitted.mpr fun c₁ _ rely₁ => ?_)
    refine runs_bind.mpr (runs_orFail (fun _ => ⟨rfl, rfl⟩) fun original found => ?_)
    refine runs_bind.mpr (runs_queryCommitted.mpr fun c₂ _ rely₂ => ?_)
    have kept := ((keeps.rely rely₂).stored found).1
    refine Runs.mono ?_ (fun _ _ _ _ here => here)
      (keeps.post_replies id (.done (.ok ())) (.refl [] c₂))
    intro answer held pend c done
    refine ⟨done.1, _, c₂, rely₁.trans rely₂, ?_, done.2⟩
    simp only [PostCall.asks, kept, Option.map_some]

end LedgerRun

/-! ## The law of replays -/

/-- A call that has answered: what it asked for is recorded if and only if no look-alike was there
to be seen. -/
def PostCall.Answered (call : PostCall) (seen after : Ledger) : Prop :=
  ∃ input, call.asks seen = some input ∧ (after.Recorded input ↔ ¬ seen.LookAlike input)

namespace LedgerRun

/-- How a client's last call ends. -/
def Ended (last : PostCall) (result : Except Err PostedTransaction) (held : List RowLock)
    (pend : Db → Db) (c : Db) : Prop :=
  Between held pend c ∧ ∀ answer, result = .ok answer →
    ∃ input, last.asks c.ledger = some input ∧ c.ledger.Matches input answer.transaction

theorem postingClient_safe (calls : List LedgerCall) (last : PostCall) (c : Db) :
    recordDiscipline.Safe recordDiscipline.change (Ended last) (postingClient calls last) [] id c := by
  have keeps := recordDiscipline_keeps
  refine safe_bind.mpr (Safe.mono ?_ (keeps.fits.client calls c))
  rintro _ held pend c₀ ⟨rfl, rfl⟩
  refine Safe.mono ?_ (keeps.call_replies last)
  rintro (e | answer) held pend c done
  · exact ⟨done, fun answer same => by cases same⟩
  · obtain ⟨between, input, c', _, asked, reply⟩ := done
    refine ⟨between, ?_⟩
    rintro _ ⟨rfl⟩
    exact ⟨input, PostCall.asks_extends asked reply.extends_, reply.found⟩

/-- The watcher and the only client of a run. -/
def aloneDisciplines : Option Unit → Discipline Db
  | none => recordDiscipline
  | some _ => frozenDiscipline

/-- How the only call ends. -/
def EndedAlone (db : Db) (call : PostCall) (result : Except Err PostedTransaction)
    (_ : List RowLock) (_ : Db → Db) (c : Db) : Prop :=
  ∀ answer, result = .ok answer → ∃ input, call.asks db.ledger = some input ∧
    db.ledger.Extends c.ledger ∧ c.ledger.Matches input answer.transaction ∧
    (answer.transaction.reversalOfId = input.reversalOfId ∨ c = db)

theorem call_safe_alone (db : Db) (call : PostCall) :
    frozenDiscipline.Safe recordDiscipline.change (EndedAlone db call) call.run [] id db := by
  refine Safe.mono ?_ (frozenDiscipline_keeps.call_replies call)
  rintro (e | answer) held pend c done _ same
  · cases same
  · obtain rfl := Except.ok.inj same
    obtain ⟨_, input, c', rely, asked, reply⟩ := done
    obtain rfl := frozen_rely rely
    exact ⟨input, asked, reply.extends_, reply.found, reply.reverses.imp_right frozen_rely⟩

end LedgerRun

open LedgerRun in
/-- In every run the reversals stay unique, and whatever a call that returns asked for is recorded
if and only if no look-alike is stored under its reference. Where nobody else is at work this is
decided by what was stored before the call. -/
theorem answered_in_every_run {ι : Type} [DecidableEq ι] {db : Db}
    (consistent : db.ledger.Consistent) (indexed : db.ledger.Indexed) :
    (∀ (calls : ι → List LedgerCall) (last : ι → PostCall)
      (σ : Config Db RowLock ι (Except Err PostedTransaction)),
      Config.Reaches Db.Tick (Config.start db fun i => postingClient (calls i) (last i)) σ →
      σ.committed.ledger.OneReversal ∧ ∀ i answer, σ.Returned i (.ok answer) →
        (last i).Answered σ.committed.ledger σ.committed.ledger) ∧
    ∀ (call : PostCall) (σ : Config Db RowLock Unit (Except Err PostedTransaction)),
      Config.Runs (Config.start db fun _ => call.run) σ → ∀ answer, σ.Returned () (.ok answer) →
        call.Answered db.ledger σ.committed.ledger := by
  constructor
  · intro calls last σ run
    have start : Config.Sound (fun _ => recordDiscipline) (fun _ => recordDiscipline.change)
        (fun i => Ended (last i)) (Config.start db fun i => postingClient (calls i) (last i)) :=
      .start (fun _ => ⟨consistent, indexed⟩) fun i => postingClient_safe (calls i) (last i) db
    have compatible : Config.Compatible (fun _ => recordDiscipline)
        (fun _ : ι => recordDiscipline.change) fun i => Ended (last i) := by
      refine ⟨fun _ _ _ _ _ _ _ change => change, ?_⟩
      rintro i result held pend c c' rely ⟨⟨rfl, rfl⟩, ended⟩
      refine ⟨⟨rfl, rfl⟩, fun answer same => ?_⟩
      obtain ⟨input, asked, found⟩ := ended answer same
      have steps := recordDiscipline_keeps.rely rely
      -- interference starts from a state with unique indexes, or there is none
      rcases Relation.ReflTransGen.cases_tail rely with same | ⟨_, _, _, change, _⟩
      · subst same
        exact ⟨input, asked, found⟩
      · exact ⟨input, PostCall.asks_extends asked steps, found.extends steps change.1.2⟩
    have respects : Config.Respects (fun _ : Option ι => recordDiscipline) Db.Tick := by
      rintro c c' inv ⟨clock, _, rfl⟩
      exact ⟨fun j => ⟨inv j, .refl _⟩, fun l => by cases l <;> rfl⟩
    have sound := start.reaches compatible respects run
    refine ⟨(sound.inv none).2.oneReversal, fun i answer returned => ?_⟩
    obtain ⟨_, _, _, ended⟩ := sound.returned returned
    obtain ⟨input, asked, found⟩ := ended answer rfl
    exact ⟨input, asked, found.recorded_iff⟩
  · intro call σ run answer returned
    have start : Config.Sound aloneDisciplines (fun _ => recordDiscipline.change)
        (fun _ => EndedAlone db call) (Config.start db fun _ : Unit => call.run) :=
      .start (fun j => by cases j <;> exact ⟨consistent, indexed⟩) fun _ => call_safe_alone db call
    have compatible : Config.Compatible aloneDisciplines (fun _ => recordDiscipline.change)
        fun _ => EndedAlone db call := by
      refine ⟨fun i j c c' other _ _ change => ?_, fun i result held pend c c' rely ended => ?_⟩
      · cases j with
        | none => exact change
        | some _ => exact (other rfl).elim
      · rw [frozen_rely rely]
        exact ended
    have sound := start.runs compatible run
    obtain ⟨_, _, ended⟩ := sound.returned returned
    obtain ⟨input, asked, steps, found, reverses⟩ := ended answer rfl
    refine ⟨input, asked, fun recorded seen => ?_, fun none => ?_⟩
    · exact recorded.not_lookAlike (seen.extends steps (sound.inv none).2)
    · rcases reverses with same | rfl
      · exact ⟨_, found, same⟩
      · exact found.recorded_iff.mpr none

/-! ## A reversal answered by a look-alike -/

theorem deposited : Postable 3 (deposit 500) 500 openedAccounts :=
  ⟨⟨⟨by decide, by decide, by decide⟩, validatePosting_ok_iff.mp (by decide), by decide⟩, by decide⟩

theorem funded_indexed : (funded 500).ledger.Indexed := by
  have opened : openedAccounts.Indexed := ⟨by rintro t ⟨⟩, by rintro t ⟨⟩⟩
  have steps : openedAccounts.Extends (funded 500).ledger :=
    ((Ledger.Extends.refl openedAccounts).posted deposited).same rfl rfl
  exact steps.indexed opened

/-- The entries that a reversal of the deposit would have, posted under its reference. -/
def lookAlike : PostingInput where
  reference := "reversal:1"
  description := "Reversal"
  currency := "NGN"
  entries := [⟨1, .credit, 500⟩, ⟨2, .debit, 500⟩]

def reverseDeposit : PostCall := .reverse 5 3 "reversal:1" "Reversal"

/-- The reversal of the deposit returns normally, and the deposit is not reversed. -/
theorem reverse_answered_by_lookAlike : (funded 500).ledger.Consistent ∧
    (funded 500).ledger.Indexed ∧ ∃ σ, Config.Reaches Db.Tick (Config.start (funded 500)
        fun _ : Unit => postingClient [.post 4 lookAlike (.done (.ok ()))] reverseDeposit) σ ∧
      (∃ answer, σ.Returned () (.ok answer)) ∧
      ¬ ∃ t ∈ σ.committed.ledger.transactions, t.reversalOfId = some 3 := by
  refine ⟨funded_consistent deposited, funded_indexed, ?_⟩
  have ends : ((Config.start (funded 500) fun _ : Unit =>
      postingClient [.post 4 lookAlike (.done (.ok ()))] reverseDeposit).schedule
        (List.replicate 14 ())).bind (fun σ => (σ.returned? ()).map fun result =>
          decide (result.isOk = true ∧
            σ.committed.ledger.transactions.rows.all (fun t => t.reversalOfId.isNone) = true)) =
      some true := by
    decide +kernel
  obtain ⟨σ, found, ended⟩ := Option.bind_eq_some_iff.mp ends
  obtain ⟨result, returned, facts⟩ := Option.map_eq_some_iff.mp ended
  obtain ⟨success, unreversed⟩ := of_decide_eq_true facts
  refine ⟨σ, (Config.schedule_sound found).reaches, ?_, ?_⟩
  · cases result with
    | error e => cases success
    | ok answer => exact ⟨answer, Config.returned?_sound returned⟩
  · rintro ⟨t, member, reverses⟩
    have none := List.all_eq_true.mp unreversed t member
    rw [reverses] at none
    cases none

/-- Under a reference of its own the reversal is recorded. -/
theorem reverse_recorded : ∃ σ, Config.Runs (Config.start (funded 500)
      fun _ : Unit => reverseDeposit.run) σ ∧ σ.committed.ledger.OneReversal ∧
    (∃ answer, σ.Returned () (.ok answer)) ∧
    reverseDeposit.Answered (funded 500).ledger σ.committed.ledger := by
  have ends : ((Config.start (funded 500) fun _ : Unit => reverseDeposit.run).schedule
      (List.replicate 10 ())).bind (fun σ => (σ.returned? ()).map fun result =>
        decide (result.isOk = true)) = some true := by
    decide +kernel
  obtain ⟨σ, found, ended⟩ := Option.bind_eq_some_iff.mp ends
  obtain ⟨result, returned, success⟩ := Option.map_eq_some_iff.mp ended
  have run := Config.schedule_sound found
  have law := answered_in_every_run (ι := Unit) (funded_consistent deposited) funded_indexed
  cases result with
  | error e => cases of_decide_eq_true success
  | ok answer =>
    have ended := Config.returned?_sound returned
    have every := law.1 (fun _ => []) (fun _ => reverseDeposit) σ run.reaches
    exact ⟨σ, run, every.1, ⟨answer, ended⟩, law.2 reverseDeposit σ run answer ended⟩

end Finstack
