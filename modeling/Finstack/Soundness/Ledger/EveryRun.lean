import Finstack.Model.Ledger.Clients
import Finstack.Soundness.Ledger.PostWithin

/-! # Every run of the ledger

Any number of clients use the ledger at once, one statement at a time, crash and time passes: every
committed state is consistent. The discipline asks nothing of the clients but that what they commit
is consistent; inside a transaction the ledger stays sound, and what is not yet balanced is locked.
The rules are stated for any discipline that asks for a consistent ledger and for a relation to the
one before that the statements of the service respect.
-/

namespace Finstack

open Foundation Discipline LedgerService

/-- Every commit leaves a consistent ledger, which is all that anybody asks of the others. -/
def ledgerDiscipline : Discipline Db where
  inv db := db.ledger.Consistent
  change _ db' := db'.ledger.Consistent
  inv_change _ consistent := consistent

namespace LedgerRun

/-- A discipline and a guarantee that ask of a commit a consistent ledger in relation `P` to the one
before, where whatever the service does to the ledger inside a transaction keeps the relation. -/
structure Fits (D : Discipline Db) (G : Db → Db → Prop) (P : Ledger → Ledger → Prop) : Prop where
  consistent : ∀ {db : Db}, D.inv db → db.ledger.Consistent
  commits : ∀ {a b : Db}, D.inv a → b.ledger.Consistent → P a.ledger b.ledger → D.inv b ∧ G a b
  refl : ∀ a, P a a
  account : ∀ {a m account}, P a m → m.checkNewAccount account = .ok () →
    P a (m.insertAccount account)
  transaction : ∀ {a m transaction}, P a m → m.checkNewTransaction transaction = .ok () →
    P a (m.insertTransaction transaction)
  posted : ∀ {a m id input amount}, P a m → Postable id input amount m →
    P a (posted id input amount m)
  cleared : ∀ {a m}, P a m → P a m.clearDeferred

theorem ledgerDiscipline_fits : Fits ledgerDiscipline ledgerDiscipline.change fun _ _ => True :=
  ⟨fun inv => inv, fun _ consistent _ => ⟨consistent, consistent⟩, fun _ => trivial,
    fun _ _ => trivial, fun _ _ => trivial, fun _ _ => trivial, fun _ => trivial⟩

variable {α : Type} {D : Discipline Db} {G : Db → Db → Prop} {P : Ledger → Ledger → Prop}
  {held : List RowLock} {pend : Db → Db} {c : Db}

/-- An open transaction leaves a sound ledger, and has locked the transactions it must balance. -/
def InTransaction (D : Discipline Db) (P : Ledger → Ledger → Prop) (held : List RowLock)
    (pend : Db → Db) (c : Db) : Prop :=
  ∃ ids : List Uuid, (∀ id ∈ ids, RowLock.ledgerTransaction id false ∈ held) ∧
    D.Open held pend c fun a b =>
      b.ledger.Sound ∧ b.ledger.deferred = ids ∧ P a.ledger b.ledger

theorem Fits.start (fits : Fits D G P) : InTransaction D P [] id c :=
  ⟨[], by simp, Open.start.mono fun _ _ inv same => by
    subst same
    have consistent := fits.consistent inv
    exact ⟨consistent.toSound, consistent.nothingDeferred, fits.refl _⟩⟩

/-- Sound or not, code inside a transaction leaves it so. -/
def Stays (D : Discipline Db) (G : Db → Db → Prop) (P : Ledger → Ledger → Prop) (x : DbTxn α) :
    Prop :=
  ∀ held pend c, InTransaction D P held pend c →
    D.Runs G (fun _ => InTransaction D P) (fun _ => InTransaction D P) x held pend c

theorem posted_sound {id : Uuid} {input : PostingInput} {amount : Int} {ledger : Ledger}
    (postable : Postable id input amount ledger) (sound : ledger.Sound) :
    (posted id input amount ledger).Sound :=
  (sound.insertTransaction postable.transaction).insertEntries postable.entries

theorem Fits.createAccount (fits : Fits D G P) (id : Uuid) (input : CreateLedgerAccountInput) :
    Stays D G P (LedgerService.createAccount id input) := by
  rintro held pend c ⟨ids, locked, opened⟩
  refine runs_bind.mpr (runs_checked opened (writes_insertAccount (newAccount id input))
    (guarded_checkNewAccount _ (.ok ())) (fun c' e _ rely _ => ?_) fun c' _ _ _ here => ?_)
  · exact ⟨ids, fun id member => List.mem_append_right _ (locked id member),
      opened.later (fun l => List.mem_append_right _) rely⟩
  · refine ⟨ids, fun id member => List.mem_append_right _ (locked id member), here.mono ?_⟩
    rintro a b - ⟨m, ⟨sound, deferred, related⟩, passed, rfl⟩
    exact ⟨sound.insertAccount passed, deferred, fits.account related passed⟩

theorem insertOrIgnore_consistent {account : LedgerAccount} {db : Db} {write : Db → Db}
    (consistent : db.ledger.Consistent) (done : insertOrIgnore account db = .ok ((), write)) :
    write db = db ∨ (db.ledger.checkNewAccount account = .ok () ∧
      (write db).ledger.Consistent ∧ write = Db.onLedger (Ledger.insertAccount account)) := by
  rcases insertOrIgnore_ok done with same | ⟨checked, rfl⟩
  · exact .inl same
  · exact .inr ⟨checked, ⟨consistent.insertAccount checked, consistent.nothingDeferred⟩, rfl⟩

/-- What a separate insert of an account commits is allowed. -/
theorem Fits.insertOrIgnore (fits : Fits D D.change P) {account : LedgerAccount} {db : Db}
    {write : Db → Db} (inv : D.inv db) (done : LedgerService.insertOrIgnore account db = .ok ((), write)) :
    D.Allowed D.change (accountLocks account) db (write db) ∧
      (write db = db ∨ D.change db (write db)) := by
  rcases insertOrIgnore_consistent (fits.consistent inv) done with same | ⟨checked, consistent, rfl⟩
  · exact ⟨.inl same, .inl same⟩
  · obtain ⟨inv', change⟩ := fits.commits inv consistent (fits.account (fits.refl _) checked)
    exact ⟨.inr ⟨inv', change, (writes_insertAccount account).frame db⟩, .inr change⟩

theorem Fits.ensureSystemAccount (fits : Fits D D.change P) (id : Uuid)
    (definition : SystemAccounts.Definition) :
    Stays D D.change P (LedgerService.ensureSystemAccount id definition) := by
  rintro held pend c ⟨ids, locked, opened⟩
  refine runs_bind.mpr (runs_beside opened (fun c' e _ rely _ => ?_)
    (fun c' _ write inv done => fits.insertOrIgnore inv done) fun c' _ write _ _ _ _ here => ?_)
  · exact ⟨ids, locked, opened.later (fun _ member => member) rely⟩
  · refine runs_bind.mpr (runs_readCommitted here fun c₂ _ _ opened₂ => ?_)
    exact runs_orFail (fun _ => ⟨ids, locked, opened₂⟩) fun _ _ => ⟨ids, locked, opened₂⟩

theorem Fits.postWithin (fits : Fits D G P) (id : Uuid) (input : PostingInput) :
    Stays D G P (LedgerService.postWithin id input) := by
  rintro held pend c ⟨ids, locked, opened⟩
  have lockedIn : ∀ {held' : List RowLock}, (∀ l ∈ held, l ∈ held') →
      ∀ id ∈ ids, RowLock.ledgerTransaction id false ∈ held' :=
    fun subset id member => subset _ (locked id member)
  refine runs_postWithin opened (fun _ _ => ⟨ids, locked, opened⟩)
    (fun c₁ c₂ transaction _ _ _ _ _ here => ?_) (fun _ _ _ _ _ _ _ here _ => ⟨ids, locked, here⟩)
    (fun _ _ _ _ _ _ _ _ _ subset _ here _ => ⟨ids, lockedIn subset, here⟩)
    (fun held' c' amount e subset keys _ here _ _ => ?_)
    fun held' c' amount subset _ keys _ _ here => ?_
  · cases replayResult input transaction ((pend c₂).ledger.entriesOf transaction.id) with
    | ok posted => exact ⟨ids, locked, here⟩
    | error e => exact ⟨ids, locked, here⟩
  · refine ⟨ids ++ [id], fun other member => ?_, here.mono ?_⟩
    · rcases List.mem_append.mp member with old | new
      · exact lockedIn subset other old
      · rw [List.mem_singleton.mp new]
        exact keys _ (mem_transactionLocks _)
    · rintro a b - ⟨m, ⟨sound, deferred, related⟩, accepted, rfl⟩
      refine ⟨sound.insertTransaction accepted.transaction, ?_,
        fits.transaction related accepted.transaction⟩
      rw [← deferred]
      rfl
  · refine ⟨ids ++ [id] ++ (newEntries (newTransaction id input amount) input.entries).map
      (·.ledgerTransactionId), fun other member => ?_, here.mono ?_⟩
    · have fresh : other = id → RowLock.ledgerTransaction other false ∈ held' := by
        rintro rfl
        exact keys _ (mem_transactionLocks _)
      rcases List.mem_append.mp member with first | entry
      · rcases List.mem_append.mp first with old | new
        · exact lockedIn subset other old
        · exact fresh (List.mem_singleton.mp new)
      · obtain ⟨row, present, rfl⟩ := List.mem_map.mp entry
        exact fresh (newEntries_ours _ _ row present)
    · rintro a b - ⟨m, ⟨sound, deferred, related⟩, postable, rfl⟩
      refine ⟨posted_sound postable sound, ?_, fits.posted related postable⟩
      rw [← deferred]
      rfl

/-- What a caller does inside its transaction leaves it sound. -/
theorem Fits.body (fits : Fits D D.change P) (caller : Caller) :
    Stays D D.change P caller.body := by
  induction caller with
  | done result =>
    intro held pend c start
    cases result <;> exact start
  | read next ih =>
    rintro held pend c ⟨ids, locked, opened⟩
    exact runs_bind.mpr (runs_read opened fun c' _ _ here =>
      ih (pend c') held pend c' ⟨ids, locked, here⟩)
  | createAccount id input next ih =>
    intro held pend c start
    refine safe_bind.mpr (Safe.mono ?_ (fits.createAccount id input held pend c start))
    rintro (e | account) held' pend' c' here <;> exact ih _ held' pend' c' here
  | ensureSystemAccount id definition next ih =>
    intro held pend c start
    refine safe_bind.mpr (Safe.mono ?_ (fits.ensureSystemAccount id definition held pend c start))
    rintro (e | account) held' pend' c' here <;> exact ih _ held' pend' c' here
  | postWithin id input next ih =>
    intro held pend c start
    refine safe_bind.mpr (Safe.mono ?_ (fits.postWithin id input held pend c start))
    rintro (e | posted) held' pend' c' here <;> exact ih _ held' pend' c' here

/-! ## Whole calls -/

/-- Between two calls: no locks and nothing uncommitted. -/
def Between (held : List RowLock) (pend : Db → Db) (_ : Db) : Prop := held = [] ∧ pend = id

/-- Code that opens and ends its own transactions. -/
def Ends (D : Discipline Db) (G : Db → Db → Prop) (x : DbTxn α) : Prop :=
  ∀ c, D.Runs G (fun _ => Between) (fun _ => Between) x [] id c

/-- A transaction of sound code commits a consistent ledger: the deferred triggers see to it. What
its code has made sure of at every state it could commit on holds of the state it commits. -/
theorem Fits.runs_inTransaction (fits : Fits D G P) {body : DbTxn α} {R : α → Db → Prop}
    {S : Db → Prop} (stable : ∀ {held c c'}, D.Rely held c c' → S c → S c')
    (runs : D.Runs G (fun _ held pend c => InTransaction D P held pend c ∧ S c)
      (fun a held pend c => InTransaction D P held pend c ∧ S c ∧
        D.Open held pend c fun _ b => R a (Db.onLedger Ledger.clearDeferred b)) body [] id c) :
    D.Runs G (fun _ held pend c => Between held pend c ∧ S c)
      (fun a held pend c => Between held pend c ∧ R a c) (inTransaction body) [] id c := by
  have rolledBack : ∀ (e : Err) held pend (c c' : Db), D.inv c' → D.Rely held c c' →
      InTransaction D P held pend c ∧ S c → Between [] id c' ∧ S c' :=
    fun _ _ _ _ _ _ rely before => ⟨⟨rfl, rfl⟩, stable rely before.2⟩
  refine runs_transaction rolledBack (Runs.mono ?_ (fun _ _ _ _ here => here) runs)
  rintro a held pend c ⟨⟨ids, locked, sound⟩, before, result⟩
  refine runs_statement.mpr fun c₁ inv₁ rely₁ => ⟨fun e _ => ?_, fun _ write checked => ?_⟩
  · exact ⟨⟨ids, locked, sound.later (fun _ member => member) rely₁⟩, stable rely₁ before⟩
  · have opened₁ : D.Open held pend c₁ _ :=
      Open.later (fun _ member => member) rely₁ ⟨sound.writes, sound.does.and result.does⟩
    have deferred := (opened₁.now inv₁).1.2.1
    cases passed : (pend c₁).ledger.checkDeferred with
    | error e => simp [databaseCheck, passed] at checked
    | ok _ =>
      obtain rfl : Db.onLedger Ledger.clearDeferred = write := by
        simpa [databaseCheck, passed] using checked
      have balanced : ∀ id ∈ ids, (pend c₁).ledger.checkBalanced id = .ok () := by
        rw [← deferred]
        exact Ledger.forM_ok.mp passed
      have guarded : GuardedBy held fun db : Db => ∀ id ∈ ids, db.ledger.checkBalanced id = .ok () :=
        guarded_checkBalanced.mono fun l member => by
          obtain ⟨id, present, rfl⟩ := List.mem_map.mp member
          exact locked id present
      have done := (opened₁.saw guarded balanced).wrote (P := fun _ => True)
        (fun _ _ _ _ => trivial) trivial (writes_clearDeferred.mono (by simp))
      intro c₂ inv₂ rely₂
      have opened₂ := done.later (fun _ member => member) rely₂
      obtain ⟨m, ⟨⟨⟨sound, deferred₂, related⟩, left⟩, passed₂⟩, -, same⟩ := opened₂.now inv₂
      have consistent : m.ledger.clearDeferred.Consistent :=
        sound.commit (Ledger.forM_ok.mpr (by rw [deferred₂]; exact passed₂))
      have related' : P c₂.ledger (Db.onLedger Ledger.clearDeferred m).ledger := fits.cleared related
      rw [← same] at left related'
      refine ⟨opened₂.allowed inv₂ fun _ => ?_, ⟨rfl, rfl⟩, left⟩
      refine fits.commits inv₂ ?_ related'
      rw [same]
      exact consistent

theorem Fits.inTransaction (fits : Fits D G P) {body : DbTxn α} (stays : Stays D G P body) :
    Ends D G (Finstack.inTransaction body) := by
  intro c
  refine Runs.mono (fun _ _ _ _ here => here.1) (fun _ _ _ _ here => here.1)
    (fits.runs_inTransaction (S := fun _ => True) (R := fun _ _ => True) (fun _ _ => trivial)
      (Runs.mono ?_ (fun _ _ _ _ here => ⟨here, trivial⟩) (stays [] id c fits.start)))
  rintro a held pend c ⟨ids, locked, opened⟩
  exact ⟨⟨ids, locked, opened⟩, trivial, opened.mono fun _ _ _ _ => trivial⟩

theorem ends_bind {β : Type} {x : DbTxn α} {f : α → DbTxn β} (first : Ends D G x)
    (second : ∀ a, Ends D G (f a)) : Ends D G (x >>= f) := by
  intro c
  refine runs_bind.mpr (Runs.mono ?_ (fun _ _ _ _ here => here) (first c))
  rintro a held pend c' ⟨rfl, rfl⟩
  exact second a c'

theorem ends_ret (result : Except Err α) : Ends D G (Prog.ret result) := by
  intro c
  cases result <;> exact ⟨rfl, rfl⟩

theorem ends_readCommitted (read : Db → α) : Ends D G (Txn.queryCommitted read) := by
  intro c
  exact runs_queryCommitted.mpr fun c' _ _ => ⟨rfl, rfl⟩

theorem ends_orFail (entity : String) (row : Option α) : Ends D G (orFail entity row) := by
  cases row
  · exact ends_ret (.error (.entityNotFound entity))
  · exact ends_ret (.ok _)

theorem Fits.ensureSystemAccount_ends (fits : Fits D D.change P) (id : Uuid)
    (definition : SystemAccounts.Definition) :
    Ends D D.change (LedgerService.ensureSystemAccount id definition) := by
  refine ends_bind (fun c => ?_) fun _ => ends_bind (ends_readCommitted _) fun _ => ends_orFail _ _
  exact runs_beside Open.start (fun _ _ _ _ _ => ⟨rfl, rfl⟩)
    (fun c' _ write inv done => fits.insertOrIgnore inv done) fun _ _ _ _ _ _ _ _ => ⟨rfl, rfl⟩

theorem replay_ends (input : PostingInput) : Ends D G (replay .dataSource input) :=
  ends_bind (ends_readCommitted _) fun _ => ends_bind (ends_orFail _ _) fun _ =>
    ends_bind (ends_readCommitted _) fun _ => ends_ret _

theorem Fits.post (fits : Fits D G P) (id : Uuid) (input : PostingInput) {beforePost : DbTxn Unit}
    (before : Stays D G P beforePost) : Ends D G (LedgerService.post id input beforePost) := by
  refine ends_bind (ends_ret _) fun _ c => runs_tryCatch ?_
  have body : Stays D G P (beforePost >>= fun _ => LedgerService.postWithin id input) := by
    intro held pend c start
    refine runs_bind.mpr (Runs.mono ?_ (fun _ _ _ _ here => here) (before held pend c start))
    exact fun _ held' pend' c' here => fits.postWithin id input held' pend' c' here
  refine Runs.mono (fun _ _ _ _ here => here) ?_ (fits.inTransaction body c)
  rintro e held pend c' ⟨rfl, rfl⟩
  unfold recoverPost
  split_ifs
  · exact replay_ends input c'
  · exact ends_ret (.error transactionAlreadyReversedException) c'
  · exact ends_ret (.error e) c'

theorem Fits.call (fits : Fits D D.change P) (call : LedgerCall) : Ends D D.change call.run := by
  cases call with
  | createAccount id input =>
    exact ends_bind (fits.inTransaction (fits.createAccount id input)) fun _ => ends_ret (.ok ())
  | ensureSystemAccount id definition =>
    exact ends_bind (fits.ensureSystemAccount_ends id definition) fun _ => ends_ret (.ok ())
  | post id input beforePost =>
    exact ends_bind (fits.post id input (fits.body beforePost)) fun _ => ends_ret (.ok ())
  | reverse id transactionId reference description =>
    have nothing : Stays D D.change P (pure () : DbTxn Unit) := fun _ _ _ start => start
    exact ends_bind (ends_bind (ends_readCommitted _) fun _ => ends_bind (ends_orFail _ _) fun _ =>
      ends_bind (ends_readCommitted _) fun _ => fits.post _ _ nothing) fun _ => ends_ret (.ok ())
  | within caller => exact fits.inTransaction (fits.body caller)

theorem Fits.client (fits : Fits D D.change P) (calls : List LedgerCall) (c : Db) :
    D.Safe D.change (fun _ => Between) (ledgerClient calls) [] id c := by
  induction calls generalizing c with
  | nil => exact ⟨rfl, rfl⟩
  | cons call rest ih =>
    refine safe_bind.mpr (Safe.mono ?_ (fits.call call c))
    rintro (e | a) held pend c' ⟨rfl, rfl⟩ <;> exact ih c'

end LedgerRun

/-- From an empty ledger, every committed state of every run is consistent: cached balances are the
sums of the entries, no account that may not is negative, every stored transaction has two entries
or more on accounts of its currency and balances at its amount, and both reports agree. -/
theorem ledger_consistent_in_every_run {ι : Type} [DecidableEq ι] (db : Db)
    (calls : ι → List LedgerCall) {σ : Config Db RowLock ι Unit}
    (run : Config.Reaches Db.Tick
      (Config.start { db with ledger := Ledger.empty } fun i => ledgerClient (calls i)) σ) :
    σ.committed.ledger.Consistent ∧
      (∀ currency, (σ.committed.ledger.trialBalance currency).1 =
        (σ.committed.ledger.trialBalance currency).2) ∧
      σ.committed.ledger.findBalanceDiscrepancies = [] := by
  have start : Config.Sound (fun _ => ledgerDiscipline) (fun _ => ledgerDiscipline.change)
      (fun _ _ => LedgerRun.Between)
      (Config.start { db with ledger := Ledger.empty } fun i => ledgerClient (calls i)) :=
    .start (fun _ => Ledger.consistent_empty) fun i =>
      LedgerRun.ledgerDiscipline_fits.client (calls i) _
  have compatible : Config.Compatible (fun _ => ledgerDiscipline)
      (fun _ : ι => ledgerDiscipline.change) (fun _ (_ : Unit) => LedgerRun.Between) :=
    ⟨fun _ _ _ _ _ _ _ change => change, fun _ _ _ _ _ _ _ between => between⟩
  have respects : Config.Respects (fun _ : Option ι => ledgerDiscipline) Db.Tick := by
    rintro c c' inv ⟨clock, _, rfl⟩
    exact ⟨fun j => inv j, fun l => by cases l <;> rfl⟩
  have sound := start.reaches compatible respects run
  have consistent : σ.committed.ledger.Consistent := sound.inv none
  exact ⟨consistent, consistent.trialBalance, consistent.findBalanceDiscrepancies⟩

/-- One client opens two accounts and posts a fee between them. -/
def feePosting (_ : Unit) : List LedgerCall :=
  [.createAccount 1 {
      name := "External clearing (NGN)"
      type := .asset
      currency := "NGN"
      allowNegativeBalance := true },
    .createAccount 2 { name := "Fee revenue (NGN)", type := .revenue, currency := "NGN" },
    .post 3 {
      reference := "fee:1"
      description := "Fee"
      currency := "NGN"
      entries := [⟨1, .debit, 500⟩, ⟨2, .credit, 500⟩] } (.done (.ok ()))]

theorem ledger_consistent_after_feePosting : ∃ σ, Config.Reaches Db.Tick
    (Config.start { Db.empty with ledger := Ledger.empty } fun i => ledgerClient (feePosting i)) σ ∧
      σ.committed.ledger.accounts.rows.map (·.balance) = [500, 500] ∧
      σ.committed.ledger.Consistent := by
  have ends : ((Config.start { Db.empty with ledger := Ledger.empty } fun i =>
      ledgerClient (feePosting i)).schedule (List.replicate 13 ())).map (fun σ =>
        σ.committed.ledger.accounts.rows.map (·.balance)) = some [500, 500] := by
    decide +kernel
  obtain ⟨σ, found, balances⟩ := Option.map_eq_some_iff.mp ends
  have run : Config.Reaches Db.Tick _ σ := (Config.schedule_sound found).reaches
  exact ⟨σ, run, balances, (ledger_consistent_in_every_run Db.empty feePosting run).1⟩

end Finstack
