import Finstack.Soundness.Books.Payments
import Finstack.Soundness.Books.Payouts
import Finstack.Soundness.Books.Refunds
import Finstack.Soundness.Books.Totals
import Finstack.Soundness.Books.Transfers
import Finstack.Soundness.Services.Rows

/-! # Statements that keep the books

What each statement adds to what a transaction has done, and what is known after it. What a check has
established when a statement ran is still so when the transaction commits, as the check only depends on
what the statement locks.
-/

namespace Finstack

open Foundation Discipline LedgerService

/-! ## Checks -/

section Guards

theorem isSome_of_keys {R : Type} [Keyed R Uuid] {found found' : Option R}
    (same : found.map key = found'.map key) : found.isSome = found'.isSome := by
  simpa using congrArg Option.isSome same

theorem guarded_checkNewRow (row : Transaction) :
    GuardedBy (Db.transactionLocks row) fun db : Db => db.checkNewTransaction row = .ok () := by
  intro c c' same checked
  have own := same _ (row_mem_transactionLocks row)
  have reference := same _ (reference_mem_rowLocks row)
  simp only [Db.same_observed, Db.observe, Db.Observed.transaction.injEq,
    Db.Observed.index.injEq] at own reference
  have keyed : (row.idempotencyKey.bind (c.findByIdempotencyKey row.owner)).isSome =
      (row.idempotencyKey.bind (c'.findByIdempotencyKey row.owner)).isSome := by
    cases given : row.idempotencyKey with
    | none => rfl
    | some idempotencyKey =>
      have index := same _ (key_mem_transactionLocks given)
      simp only [Db.same_observed, Db.observe, Db.Observed.index.injEq] at index
      exact isSome_of_keys index
  simp only [Db.checkNewTransaction] at checked ⊢
  rw [← own, ← keyed, ← isSome_of_keys reference]
  exact checked

theorem guarded_checkTransition (id : Uuid) (change : Transaction → Transaction) :
    GuardedBy [RowLock.transaction id] fun db : Db => db.checkTransition id change = .ok () := by
  intro c c' same checked
  have own := same _ List.mem_cons_self
  simp only [Db.same_observed, Db.observe, Db.Observed.transaction.injEq] at own
  simp only [Db.checkTransition] at checked ⊢
  rw [← own]
  exact checked

theorem guarded_checkPayment (id : Uuid) (change : Payment → Payment) :
    GuardedBy [RowLock.payment id] fun db : Db =>
      Db.checkUpdate Db.checkPayment change (db.payments.find? id) = .ok () := by
  intro c c' same checked
  have own := same _ List.mem_cons_self
  simp only [Db.same_observed, Db.observe, Db.Observed.payment.injEq] at own
  rw [← own]
  exact checked

theorem guarded_checkNewRefund (row : Refund) :
    GuardedBy (Db.refundLocks row) fun db : Db => db.checkNewRefund row = .ok () := by
  intro c c' same checked
  have own := same (.refund row.id) (by simp [Db.refundLocks])
  have reference := same (.refundReference row.reference) (by simp [Db.refundLocks])
  have keyed := same (.refundIdempotencyKey row.requestedByUserId row.idempotencyKey)
    (by simp [Db.refundLocks])
  simp only [Db.same_observed, Db.observe, Db.Observed.refund.injEq,
    Db.Observed.index.injEq] at own reference keyed
  simp only [Db.checkNewRefund] at checked ⊢
  rw [← own, ← isSome_of_keys reference, ← isSome_of_keys keyed]
  exact checked

theorem guarded_checkNewPayout (row : Payout) :
    GuardedBy (Db.payoutLocks row) fun db : Db => db.checkNewPayout row = .ok () := by
  intro c c' same checked
  have own := same (.payout row.id) (by simp [Db.payoutLocks])
  have reference := same (.payoutReference row.reference) (by simp [Db.payoutLocks])
  have transaction := same (.payoutTransaction row.transactionId) (by simp [Db.payoutLocks])
  simp only [Db.same_observed, Db.observe, Db.Observed.payout.injEq,
    Db.Observed.index.injEq] at own reference transaction
  simp only [Db.checkNewPayout] at checked ⊢
  rw [← own, ← isSome_of_keys reference, ← isSome_of_keys transaction]
  exact checked

end Guards

namespace Services

variable {α β : Type} {mode : Mode} {T : Db → Db → Prop} {F : Knowing} {U : α → Db → Db → Prop}
  {R : α → Knowing} {held : List RowLock} {c : Db}

/-- Code that knows `F` and whose transaction has done `T` keeps the books; then it knows `R` and its
transaction has done `U`. -/
abbrev Keeping (mode : Mode) (T : Db → Db → Prop) (F : Knowing) (x : DbTxn α)
    (U : α → Db → Db → Prop) (R : α → Knowing) : Prop :=
  booksDiscipline.Leads Db.Continues mode T F x U R

/-! ## Answers and reads -/

theorem keeping_answer {a : α} (known : ∀ held c, c.Books → F.holds held c → (R a).holds held c) :
    Keeping mode (U a) F (pure a) U R :=
  fun held _ c inv here known' => ⟨inv, here, known held c inv known'⟩

theorem keeping_pure {a : α} (known : ∀ held c, c.Books → F.holds held c → (R a).holds held c) :
    Keeping mode T F (pure a) (fun _ => T) R :=
  keeping_answer (U := fun _ => T) known

/-- Less may be known afterwards. -/
theorem keeping_less {x : DbTxn α} {R' : α → Knowing} (keeping : Keeping mode T F x U R)
    (less : ∀ a held c, (R a).holds held c → (R' a).holds held c) : Keeping mode T F x U R' :=
  keeping.mono (fun _ _ _ known => known) fun a held c _ known => less a held c known

/-- What is known of values can be used. -/
theorem keeping_of_given {x : DbTxn α} {P : Prop} (runs : P → Keeping mode T F x U R) :
    Keeping mode T (F.and (Fact.given P)) x U R :=
  fun held pend c inv here known => runs known.2 held pend c inv here known.1

theorem keeping_stay {a : α} : Keeping mode T F (pure a) (fun _ => T) fun _ => F :=
  keeping_pure fun _ _ _ known => known

theorem keeping_throw {e : Err} : Keeping mode T F (Txn.throw e : DbTxn α) U R := leads_throw

theorem keeping_ret {result : Except Err α} :
    Keeping mode T F (Prog.ret result) (fun _ => T) fun _ => F :=
  leads_ret fun _ _ => ⟨fun _ _ known => known, rfl⟩

/-- A synchronous result, and that it is the one. -/
theorem keeping_given {result : Except Err α} : Keeping mode T F (Prog.ret result) (fun _ => T)
    fun a => F.and (Fact.given (result = .ok a)) :=
  leads_ret fun _ same => ⟨fun _ _ known => ⟨known, same⟩, rfl⟩

theorem keeping_orFail {entity : String} {found : Option α} :
    Keeping mode T F (orFail entity found) (fun _ => T) fun _ => F := by
  cases found
  · exact keeping_throw
  · exact keeping_stay

theorem keeping_orThrow {e : Err} {found : Option α} :
    Keeping mode T F (orThrow e found) (fun _ => T) fun _ => F := by
  cases found
  · exact keeping_throw
  · exact keeping_stay

/-- There is a row, and what is known of it. -/
theorem keeping_orThrow_each {e : Err} {found : Option α} {K : α → Knowing} :
    Keeping mode T (F.and (Fact.each found K)) (orThrow e found) (fun _ => T) fun a => F.and (K a) := by
  cases found
  · exact keeping_throw
  · exact keeping_pure fun _ _ _ known => known

theorem keeping_orFail_each {entity : String} {found : Option α} {K : α → Knowing} :
    Keeping mode T (F.and (Fact.each found K)) (orFail entity found) (fun _ => T)
      fun a => F.and (K a) := by
  cases found
  · exact keeping_throw
  · exact keeping_pure fun _ _ _ known => known

theorem keeping_orThrow_filter {e : Err} {found : Option α} {K : α → Knowing} {p : α → Bool} :
    Keeping mode T (F.and (Fact.each found K)) (orThrow e (found.filter p)) (fun _ => T)
      fun a => F.and (K a) := by
  cases found with
  | none => exact keeping_throw
  | some a =>
    rw [Option.filter_some]
    split_ifs
    · exact keeping_pure fun _ _ _ known => known
    · exact keeping_throw

theorem keeping_queryCommitted {read : Db → α} :
    Keeping mode T F (Txn.queryCommitted read) (fun _ => T) fun _ => F :=
  leads_queryCommitted fun _ _ _ known => known

/-- Rows read on a connection of its own, of which something is known for good. -/
theorem keeping_each {read : Db → Option α} {K : α → Knowing}
    (sees : ∀ held c a, c.Books → F.holds held c → read c = some a → (K a).holds held c) :
    Keeping mode T F (Txn.queryCommitted read) (fun _ => T) fun found => F.and (Fact.each found K) := by
  refine leads_queryCommitted fun held c inv known => ⟨known, ?_⟩
  cases found : read c with
  | none => trivial
  | some a => exact sees held c a inv known found

theorem keeping_query {read : Db → α} :
    Keeping .inside T F (Txn.query read) (fun _ => T) fun _ => F :=
  leads_query fun _ _ _ _ _ known => known

theorem keeping_select {locks : List RowLock} {read : Db → α} :
    Keeping .inside T F (Txn.select locks read) (fun _ => T) fun _ => F :=
  leads_select fun _ _ _ _ _ known _ => known

/-- What a transaction has done, with what is known of the state it will commit to. -/
theorem keeping_conclude {x : DbTxn α} {V : α → Db → Db → Prop} (keeping : Keeping .inside T F x U R)
    (imp : ∀ a held c b, c.Books → U a c b → (R a).holds held c → V a c b) :
    Keeping .inside T F x V R := by
  intro held pend c inv here known
  refine Runs.mono ?_ (fun _ _ _ _ failed => failed) (keeping held pend c inv here known)
  rintro a held' pend' c' ⟨inv', here', known'⟩
  refine ⟨inv', ?_, known'⟩
  exact (Open.knowing here' known').mono fun a' b inv both => imp a _ a' b inv both.1 both.2

/-! ## Writes -/

/-- What a check has established stays so until the transaction commits. -/
theorem keeping_saveKnowing {locks : List RowLock} {test : Db → Except DatabaseError Unit}
    {write : Db → Db} {P : Db → Prop} (writes : Writes locks write) (guarded : GuardedBy locks P)
    (establishes : ∀ db, test db = .ok () → P db) :
    Keeping .inside T F (save locks test write) (fun _ c b => ∃ m, T c m ∧ P m ∧ b = write m)
      fun _ => F := by
  refine leads_statement (P := fun _ => P) ?_ ?_ fun _ _ _ _ _ _ _ known _ => known
  · intro _ write' m done
    obtain rfl := same_of_databaseCheck done
    refine ⟨writes, guarded, establishes m ?_⟩
    cases checked : test m with
    | error e => simp [databaseCheck, checked] at done
    | ok u => rfl
  · intro _ write' _ _ c m done _ _ before passed
    obtain rfl := same_of_databaseCheck done
    exact ⟨m, before, passed, rfl⟩

theorem keeping_save {locks : List RowLock} {test : Db → Except DatabaseError Unit} {write : Db → Db}
    (writes : Writes locks write) (guarded : GuardedBy locks fun db => test db = .ok ()) :
    Keeping .inside T F (save locks test write)
      (fun _ c b => ∃ m, T c m ∧ Saved test write m b) fun _ => F :=
  keeping_saveKnowing writes guarded fun _ => id

/-- What the check has said need not matter. -/
theorem keeping_saveAny {locks : List RowLock} {test : Db → Except DatabaseError Unit} {write : Db → Db}
    (writes : Writes locks write) :
    Keeping .inside T F (save locks test write) (fun _ c b => ∃ m, T c m ∧ b = write m)
      fun _ => F :=
  keeping_conclude (keeping_saveKnowing (P := fun _ => True) writes (fun _ _ _ _ => trivial)
    fun _ _ => trivial) fun _ _ _ _ _ ⟨m, before, _, same⟩ _ => ⟨m, before, same⟩

theorem keeping_execute {locks : List RowLock} {write : Db → Db} (writes : Writes locks write) :
    Keeping .inside T F (Txn.execute locks write) (fun _ c b => ∃ m, T c m ∧ b = write m)
      fun _ => F :=
  leads_execute writes fun _ _ m _ _ before => ⟨m, before, rfl⟩

/-- An answer, with what has been done. -/
theorem keeping_give {a : α} (imp : ∀ held c b, c.Books → T c b → F.holds held c → U a c b) :
    Keeping .inside T F (pure a) U fun _ => F := fun held _ _ inv here known =>
  ⟨inv, (Open.knowing here known).mono fun c b inv both => imp held c b inv both.1 both.2, known⟩

/-- What is only done in some cases. -/
theorem keeping_when {p : Prop} [Decidable p] {x : DbTxn α} {V : Db → Db → Prop}
    (does : p → Keeping .inside T F x (fun _ => V) fun _ => F) :
    Keeping .inside T F (if p then do
        let _ ← x
        pure ()
      else pure ()) (fun _ c b => p ∧ V c b ∨ ¬ p ∧ T c b) fun _ => F := by
  split_ifs with holds
  · exact keeping_conclude ((does holds).bind fun _ => keeping_stay)
      fun _ _ _ _ _ done _ => .inl ⟨holds, done⟩
  · exact keeping_conclude (R := fun _ => F) keeping_stay fun _ _ _ _ _ done _ => .inr ⟨holds, done⟩

theorem keeping_if_then {p : Prop} [Decidable p] {x : DbTxn Unit} {next : Unit → DbTxn α}
    {V : Db → Db → Prop} (does : p → Keeping .inside T F x (fun _ => V) fun _ => F)
    (after : Keeping .inside (fun c b => p ∧ V c b ∨ ¬ p ∧ T c b) F (next ()) U R) :
    Keeping .inside T F (if p then do
        let done ← x
        next done
      else next ()) U R := by
  split_ifs with holds
  · exact (does holds).bind fun _ => after.since fun _ _ _ done => .inl ⟨holds, done⟩
  · exact after.since fun _ _ _ done => .inr ⟨holds, done⟩

/-- A transaction that may commit what it has done. -/
def KeepsBooks (c b : Db) : Prop := c.Continues b.cleared ∧ b.cleared.Books

theorem keeping_commit {x : DbTxn α} (keeping : Keeping .inside T F x U R)
    (commits : ∀ a held c b, c.Books → U a c b → (R a).holds held c → KeepsBooks c b) :
    Keeping .inside T F x (fun _ => KeepsBooks) fun _ => Fact.nothing :=
  keeping_less (keeping_conclude keeping commits) fun _ _ _ _ => trivial

/-- A transaction, and what its commit makes known. -/
theorem keeping_transaction {body : DbTxn α} {K : α → Knowing}
    (runs : Keeping .inside Eq F body (fun a c b => KeepsBooks c b ∧ (K a).holds [] b.cleared)
      fun _ => Fact.nothing) :
    Keeping .outside T F (inTransaction body) (fun _ => T) K := by
  have commits : ∀ a : α, Keeping .inside (fun c b => KeepsBooks c b ∧ (K a).holds [] b.cleared)
      Fact.nothing deferredConstraints
      (fun _ c b => (c.Continues b ∧ b.Books) ∧ (K a).holds [] b) fun _ => Fact.nothing := by
    refine fun a => leads_statement (P := fun _ _ => True) ?_ ?_ fun _ _ _ _ _ _ _ known _ => known
    · intro _ write' m done
      rw [same_of_databaseCheck done]
      exact ⟨writes_clearDeferred, fun _ _ _ _ => trivial, trivial⟩
    · intro _ write' m' _ c m done _ _ may _
      rw [same_of_databaseCheck done]
      exact may
  exact leads_transaction runs commits (fun _ _ _ _ _ may _ => ⟨may.1.2, may.1.1⟩)
    fun _ _ _ _ _ _ may _ => may.2

theorem keeping_inTransaction {body : DbTxn α}
    (runs : Keeping .inside Eq F body (fun _ => KeepsBooks) fun _ => Fact.nothing) :
    Keeping .outside T F (inTransaction body) (fun _ => T) fun _ => Fact.nothing :=
  keeping_transaction (keeping_conclude runs fun _ _ _ _ _ may _ => ⟨may, trivial⟩)

/-! ## Postings -/

/-- The accounts of a posting. -/
def lockedAccounts (input : PostingInput) : Knowing :=
  locked ((LedgerService.postedIds input).map RowLock.account)

/-- A new posting, or an answer that is known to be a replay. -/
theorem keeping_postWithin_or (id : Uuid) {input : PostingInput} {K : Knowing}
    (replays : ∀ held c m, c.Books → F.holds held c → T c m → m.Uses input.reference → K.holds held c) :
    Keeping .inside T F (LedgerService.postWithin id input)
      (fun answer c b => answer.replayed = false ∧ (∃ m total, T c m ∧ Posts id input total m b) ∨
        answer.replayed = true ∧ T c b)
      fun answer => F.and (if answer.replayed then K else lockedAccounts input) := by
  intro held pend c inv here known
  have opened : booksDiscipline.Open held pend c T := here
  refine runs_postWithin opened (fun _ _ => trivial) ?_ (fun _ _ _ _ _ _ _ _ _ => trivial)
    (fun _ _ _ _ _ _ _ _ _ _ _ _ _ => trivial) (fun _ _ _ _ _ _ _ _ _ _ => trivial) ?_
  · intro c₁ c₂ transaction inv₁ inv₂ rely₁ rely₂ found opened₂
    have known₁ := F.stays (fun _ member => member) rely₁ known
    have uses : ((pend c₁)).Uses input.reference :=
      ⟨transaction, List.mem_of_find?_eq_some found, by simpa using List.find?_some found⟩
    have replayed := replays held c₁ _ inv₁ known₁
      (Open.now (opened.later (fun _ member => member) rely₁) inv₁) uses
    cases result : replayResult input transaction ((pend c₂).ledger.entriesOf transaction.id) with
    | error e => trivial
    | ok answer =>
      have again : answer.replayed = true := by
        unfold replayResult at result
        split_ifs at result
        exact (Except.ok.inj result) ▸ rfl
      refine ⟨inv₂, opened₂.mono fun _ _ _ done => .inr ⟨again, done⟩,
        F.stays (fun _ member => member) rely₂ known₁, ?_⟩
      rw [if_pos again]
      exact K.stays (fun _ member => member) rely₂ replayed
  · intro held' c' total subset accounts _ inv' rely done
    refine ⟨inv', done.mono fun a b _ => ?_, F.stays subset rely known, fun l mine => ?_⟩
    · rintro ⟨m, before, posts⟩
      exact .inl ⟨rfl, m, total, before, posts⟩
    · obtain ⟨account, posted, rfl⟩ := List.mem_map.mp mine
      exact accounts account posted

/-- A posting under a reference that nobody has used posts anew. -/
theorem keeping_postWithin (id : Uuid) {input : PostingInput}
    (unused : ∀ held c m, c.Books → F.holds held c → T c m → ¬ m.Uses input.reference) :
    Keeping .inside T F (LedgerService.postWithin id input)
      (fun _ c b => ∃ m total, T c m ∧ Posts id input total m b)
      fun _ => F.and (lockedAccounts input) := by
  have either := keeping_postWithin_or id (K := Fact.given False) fun held c m inv known before uses =>
    unused held c m inv known before uses
  refine Leads.mono (fun _ _ _ known => known) ?_ (keeping_conclude either ?_)
  · rintro answer held c - ⟨known, more⟩
    refine ⟨known, ?_⟩
    split_ifs at more
    · exact more.elim
    · exact more
  · rintro answer held c b - (⟨-, done⟩ | ⟨again, -⟩) known
    · exact done
    · rw [if_pos again] at known
      exact known.2.elim

/-- An account of the platform's is looked up, or opened. -/
theorem keeping_ensureSystemAccount (id : Uuid) (definition : SystemAccounts.Definition) :
    Keeping mode T F (LedgerService.ensureSystemAccount id definition) (fun _ => T) fun account =>
      F.and (platform account.id) := by
  refine (leads_separately (R := fun _ => F) (fun c _ write inv done => ?_)
    fun _ _ _ _ _ _ known => known).bind fun _ => ?_
  · rcases insertOrIgnore_ok done with same | ⟨-, rfl⟩
    · exact ⟨.inl same, .inl same⟩
    · exact ⟨.inr ⟨inv.accountOpened.2, inv.accountOpened.1, (writes_insertAccount _).frame c⟩,
        .inr inv.accountOpened⟩
  refine (keeping_each (K := fun account => platform account.id) ?_).bind fun found =>
    keeping_orFail_each
  intro held c account _ _ found
  have code : account.code = some definition.code := by simpa using List.find?_some found
  have member : account ∈ c.ledger.accounts := List.mem_of_find?_eq_some found
  exact ⟨account, _, Table.find?_of_mem member, code⟩

end Services

end Finstack
