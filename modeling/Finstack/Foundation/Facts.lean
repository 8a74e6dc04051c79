import Finstack.Foundation.Pending
import Finstack.Foundation.TxnRules

/-! # What code knows as it runs

A fact is something a client knows of the committed state with the locks it has: it stays true
while others commit and while the client locks more. Code is specified by what it knows before and
after, and, inside a transaction, by what the transaction will have done. One rule for each way of
writing code, inside a transaction or outside of one.
-/

namespace Finstack.Foundation.Discipline

open Locking

variable {Db Lock Err α β : Type} [Guarding Db Lock]

/-! ## Facts -/

structure Fact (D : Discipline Db) where
  holds : List Lock → Db → Prop
  keeps : ∀ {held : List Lock} {c c' : Db}, D.Interferes held c c' → holds held c → holds held c'
  more : ∀ {held more : List Lock} {c : Db}, (∀ l ∈ held, l ∈ more) → holds held c → holds more c

namespace Fact

variable {D : Discipline Db} {held more : List Lock} {c c' : Db}

/-- Others commit, and this client locks more. -/
theorem stays (F : D.Fact) (subset : ∀ l ∈ held, l ∈ more) (rely : D.Rely held c c')
    (known : F.holds held c) : F.holds more c' := by
  refine F.more subset ?_
  induction rely with
  | refl => exact known
  | tail _ step ih => exact F.keeps step ih

def nothing : D.Fact := ⟨fun _ _ => True, fun _ _ => trivial, fun _ _ => trivial⟩

def and (F F' : D.Fact) : D.Fact where
  holds held c := F.holds held c ∧ F'.holds held c
  keeps step := And.imp (F.keeps step) (F'.keeps step)
  more subset := And.imp (F.more subset) (F'.more subset)

/-- What has nothing to do with the database. -/
def given (P : Prop) : D.Fact := ⟨fun _ _ => P, fun _ => id, fun _ => id⟩

/-- What is known of a row, if there is one. -/
def each (found : Option α) (K : α → D.Fact) : D.Fact := found.elim nothing K

/-- What no allowed commit makes false. -/
def ofStable (P : Db → Prop) (keeps : ∀ {c c'}, D.inv c → D.change c c' → P c → P c') : D.Fact where
  holds _ := P
  keeps step := keeps step.1 step.2.1
  more _ := id

end Fact

variable [Locking Lock] (D : Discipline Db)

/-! ## Specifications -/

/-- Where code runs. -/
inductive Mode where
  | outside
  | inside

/-- Outside a transaction nothing is locked and nothing uncommitted; inside one, `T` says what it
will have done. -/
def At (T : Db → Db → Prop) (held : List Lock) (pend : Db → Db) (c : Db) : Mode → Prop
  | .outside => held = [] ∧ pend = id
  | .inside => D.Open held pend c T

/-- What is left after an error: the transaction that is open is rolled back by whoever began it. -/
def Failed (held : List Lock) (pend : Db → Db) (c : Db) : Mode → Prop
  | .outside => held = [] ∧ pend = id ∧ D.inv c
  | .inside => True

omit [Locking Lock] in
/-- What is known now is known when the transaction commits. -/
theorem Does.knowing {D : Discipline Db} {F : D.Fact} {held : List Lock} {pend : Db → Db} {c : Db}
    {T : Db → Db → Prop} (does : D.Does held pend c T) (known : F.holds held c) :
    D.Does held pend c fun a b => T a b ∧ F.holds held a :=
  fun c' inv rely => ⟨does c' inv rely, F.stays (fun _ member => member) rely known⟩

theorem Open.knowing {D : Discipline Db} {F : D.Fact} {held : List Lock} {pend : Db → Db} {c : Db}
    {T : Db → Db → Prop} (opened : D.Open held pend c T) (known : F.holds held c) :
    D.Open held pend c fun a b => T a b ∧ F.holds held a :=
  ⟨opened.writes, opened.does.knowing known⟩

/-- Code that knows `F` and whose transaction has done `T` ends with a value of which it knows `R`,
when its transaction has done `U`. -/
def Leads (G : Db → Db → Prop) (mode : Mode) (T : Db → Db → Prop) (F : D.Fact)
    (x : Txn Db Lock Err α) (U : α → Db → Db → Prop) (R : α → D.Fact) : Prop :=
  ∀ held pend c, D.inv c → D.At T held pend c mode → F.holds held c →
    D.Runs G (fun _ held pend c => D.Failed held pend c mode)
      (fun a held pend c => D.inv c ∧ D.At (U a) held pend c mode ∧ (R a).holds held c) x held pend c

variable {D} {G : Db → Db → Prop} {mode : Mode} {T : Db → Db → Prop} {F : D.Fact}
  {U : α → Db → Db → Prop} {R : α → D.Fact} {held more : List Lock} {pend : Db → Db} {c c' : Db}

theorem At.later (rely : D.Rely held c c') (here : D.At T held pend c mode) :
    D.At T held pend c' mode := by
  cases mode with
  | outside => exact here
  | inside => exact here.later (fun _ member => member) rely

theorem failed_of_at (inv : D.inv c) (here : D.At T held pend c mode) :
    D.Failed held pend c mode := by
  cases mode with
  | outside => exact ⟨here.1, here.2, inv⟩
  | inside => trivial

theorem leads_pure {a : α} : D.Leads G mode (U a) (R a) (pure a : Txn Db Lock Err α) U R :=
  fun _ _ _ inv here known => ⟨inv, here, known⟩

theorem leads_throw {e : Err} : D.Leads G mode T F (Txn.throw e : Txn Db Lock Err α) U R :=
  fun _ _ _ inv here _ => failed_of_at inv here

/-- A synchronous result. -/
theorem leads_ret {result : Except Err α}
    (value : ∀ a, result = .ok a → (∀ held c, F.holds held c → (R a).holds held c) ∧ U a = T) :
    D.Leads G mode T F (Prog.ret result : Txn Db Lock Err α) U R := by
  intro held pend c inv here known
  cases result with
  | error e => exact failed_of_at inv here
  | ok a =>
    obtain ⟨imp, same⟩ := value a rfl
    exact ⟨inv, same ▸ here, imp held c known⟩

theorem Leads.bind {x : Txn Db Lock Err α} {f : α → Txn Db Lock Err β} {V : β → Db → Db → Prop}
    {S : β → D.Fact} (first : D.Leads G mode T F x U R)
    (second : ∀ a, D.Leads G mode (U a) (R a) (f a) V S) : D.Leads G mode T F (x >>= f) V S := by
  intro held pend c inv here known
  refine runs_bind.mpr (Runs.mono ?_ (fun _ _ _ _ failed => failed) (first held pend c inv here known))
  rintro a held' pend' c' ⟨inv', here', known'⟩
  exact second a held' pend' c' inv' here' known'

/-- Less needs to be known before, and more is known after. -/
theorem Leads.mono {F' : D.Fact} {R' : α → D.Fact} {x : Txn Db Lock Err α}
    (before : ∀ held c, D.inv c → F'.holds held c → F.holds held c)
    (after : ∀ a held c, D.inv c → (R a).holds held c → (R' a).holds held c)
    (leads : D.Leads G mode T F x U R) : D.Leads G mode T F' x U R' := by
  intro held pend c inv here known
  refine Runs.mono ?_ (fun _ _ _ _ failed => failed) (leads held pend c inv here (before held c inv known))
  rintro a held' pend' c' ⟨inv', here', known'⟩
  exact ⟨inv', here', after a held' c' inv' known'⟩

/-- What the transaction has done may be said with less. -/
theorem Leads.weaken {U' : α → Db → Db → Prop} {x : Txn Db Lock Err α}
    (imp : ∀ a c b, D.inv c → U a c b → U' a c b) (leads : D.Leads G mode T F x U R) :
    D.Leads G mode T F x U' R := by
  intro held pend c inv here known
  refine Runs.mono ?_ (fun _ _ _ _ failed => failed) (leads held pend c inv here known)
  rintro a held' pend' c' ⟨inv', here', known'⟩
  refine ⟨inv', ?_, known'⟩
  cases mode with
  | outside => exact here'
  | inside => exact here'.mono (imp a)

/-- What it starts from may be said with more. -/
theorem Leads.since {T' : Db → Db → Prop} {x : Txn Db Lock Err α}
    (imp : ∀ c b, D.inv c → T' c b → T c b) (leads : D.Leads G mode T F x U R) :
    D.Leads G mode T' F x U R := by
  intro held pend c inv here known
  refine leads held pend c inv ?_ known
  cases mode with
  | outside => exact here
  | inside => exact here.mono imp

/-! ## Statements -/

/-- A read on a connection of its own. -/
theorem leads_queryCommitted {read : Db → α}
    (sees : ∀ held c, D.inv c → F.holds held c → (R (read c)).holds held c) :
    D.Leads G mode T F (Txn.queryCommitted read : Txn Db Lock Err α) (fun _ => T) R := by
  intro held pend c inv here known
  refine runs_queryCommitted.mpr fun c' inv' rely => ⟨inv', here.later rely, ?_⟩
  exact sees held c' inv' (F.stays (fun _ member => member) rely known)

/-- A statement on a connection of its own. -/
theorem leads_separately {locks : List Lock} {run : Db → Except Err (α × (Db → Db))}
    (allowed : ∀ c a write, D.inv c → run c = .ok (a, write) →
      D.Allowed G locks c (write c) ∧ (write c = c ∨ D.change c (write c)))
    (sees : ∀ held c a write, D.inv (write c) → run c = .ok (a, write) →
      F.holds held (write c) → (R a).holds held (write c)) :
    D.Leads G mode T F (Txn.separately locks run) (fun _ => T) R := by
  intro held pend c inv here known
  refine runs_separately.mpr fun c' inv' rely free => ⟨fun e _ => ?_, fun a write done => ?_⟩
  · exact failed_of_at inv' (here.later rely)
  · obtain ⟨own, change⟩ := allowed c' a write inv' done
    have frame : ∀ l, (∀ m ∈ locks, conflicts m l = false) →
        observe c' l = observe (write c') l := by
      rcases own with same | ⟨_, _, frame⟩
      · exact fun l _ => by rw [same]
      · exact frame
    have upto := rely.trans (.of_change inv' change frame free)
    have invAfter : D.inv (write c') := by
      rcases change with same | change
      · rw [same]
        exact inv'
      · exact D.inv_change inv' change
    exact ⟨own, invAfter, here.later upto,
      sees held c' a write invAfter done (F.stays (fun _ member => member) upto known)⟩

/-- A read within the open transaction. -/
theorem leads_query {read : Db → α}
    (sees : ∀ held c b, D.inv c → T c b → F.holds held c → (R (read b)).holds held c) :
    D.Leads G .inside T F (Txn.query read : Txn Db Lock Err α) (fun _ => T) R := by
  intro held pend c inv (here : D.Open held pend c T) known
  refine runs_query.mpr fun c' inv' rely => ?_
  have later := here.later (fun _ member => member) rely
  exact ⟨inv', later,
    sees held c' (pend c') inv' (later.now inv') (F.stays (fun _ member => member) rely known)⟩

/-- A read of rows locked for the rest of the transaction. -/
theorem leads_select {locks : List Lock} {read : Db → α}
    (sees : ∀ held c b, D.inv c → T c b → F.holds held c → (∀ l ∈ locks, l ∈ held) →
      (R (read b)).holds held c) :
    D.Leads G .inside T F (Txn.select locks read : Txn Db Lock Err α) (fun _ => T) R := by
  intro held pend c inv (here : D.Open held pend c T) known
  refine runs_select.mpr fun c' inv' rely => ?_
  have subset : ∀ l ∈ held, l ∈ locks ++ held := fun l => List.mem_append_right locks
  have later := here.later subset rely
  exact ⟨inv', later, sees _ c' (pend c') inv' (later.now inv') (F.stays subset rely known)
    fun l => List.mem_append_left held⟩

/-- A write that cannot fail. -/
theorem leads_execute {locks : List Lock} {write : Db → Db} {V : Db → Db → Prop}
    (writes : Writes locks write)
    (step : ∀ held a m, D.inv a → F.holds held a → T a m → V a (write m)) :
    D.Leads G .inside T F (Txn.execute locks write : Txn Db Lock Err Unit) (fun _ => V)
      (fun _ => F) := by
  intro held pend c inv (here : D.Open held pend c T) known
  refine runs_execute.mpr fun c' inv' rely => ?_
  have subset : ∀ l ∈ held, l ∈ locks ++ held := fun l => List.mem_append_right locks
  have known' := F.stays subset rely known
  have done := ((here.later subset rely).knowing known').wrote (P := fun _ => True)
    (fun _ _ _ _ => trivial) trivial (writes.mono fun l => List.mem_append_left held)
  refine ⟨inv', done.mono ?_, known'⟩
  rintro a b invA ⟨m, ⟨before, still⟩, -, rfl⟩
  exact step _ a m invA still before

/-- A write behind a check that may refuse it; what the check has established of what is locked is
true when the transaction commits. -/
theorem leads_statement {locks : List Lock} {run : Db → Except Err (α × (Db → Db))}
    {P : α → Db → Prop}
    (writes : ∀ a write m, run m = .ok (a, write) → Writes locks write ∧ GuardedBy locks (P a) ∧ P a m)
    (step : ∀ a write m' held c m, run m' = .ok (a, write) → D.inv c → F.holds held c → T c m →
      P a m → U a c (write m))
    (sees : ∀ a write m' held c, run m' = .ok (a, write) → D.inv c → F.holds held c →
      (∀ l ∈ locks, l ∈ held) → (R a).holds held c) :
    D.Leads G .inside T F (Txn.statement locks run) U R := by
  intro held pend c inv (here : D.Open held pend c T) known
  refine runs_statement.mpr fun c' inv' rely => ⟨fun _ _ => trivial, fun a write done => ?_⟩
  have subset : ∀ l ∈ held, l ∈ locks ++ held := fun l => List.mem_append_right locks
  obtain ⟨frame, guarded, passed⟩ := writes a write _ done
  have own : ∀ l ∈ locks, l ∈ locks ++ held := fun l => List.mem_append_left held
  have known' := F.stays subset rely known
  have opened := ((here.later subset rely).knowing known').wrote (guarded.mono own) passed
    (frame.mono own)
  refine ⟨inv', opened.mono ?_, sees a write _ _ c' done inv' known' own⟩
  rintro a' b invA ⟨m, ⟨before, still⟩, check, rfl⟩
  exact step a write _ _ a' m done invA still before check

/-! ## Transactions -/

/-- A transaction: what it will have done has to be allowed. -/
theorem leads_transaction {atCommit : Txn Db Lock Err Unit} {body : Txn Db Lock Err α}
    {V : α → Db → Db → Prop} {R' P : α → D.Fact} {T' : Db → Db → Prop}
    (runs : D.Leads G .inside Eq F body U R)
    (checks : ∀ a, D.Leads G .inside (U a) (R a) atCommit (fun _ => V a) (fun _ => R' a))
    (allowed : ∀ a held c b, D.inv c → V a c b → (R' a).holds held c → D.inv b ∧ G c b)
    (after : ∀ a held c b, D.inv c → D.inv b → V a c b → (R' a).holds held c → (P a).holds [] b) :
    D.Leads G .outside T' F (Txn.transaction atCommit body) (fun _ => T') P := by
  rintro held pend c inv ⟨rfl, rfl⟩ known
  have rolledBack : ∀ (_ : Err) (held : List Lock) (_ : Db → Db) (c c' : Db), D.inv c' →
      D.Rely held c c' → True → D.Failed ([] : List Lock) id c' .outside :=
    fun _ _ _ _ _ inv' _ _ => ⟨rfl, rfl, inv'⟩
  refine runs_transaction rolledBack ?_
  refine Runs.mono ?_ (fun _ _ _ _ _ => trivial) (runs [] id c inv Open.start known)
  rintro a held' pend' c' ⟨inv', here', known'⟩
  refine Runs.mono ?_ (fun _ _ _ _ _ => trivial) (checks a held' pend' c' inv' here' known')
  rintro _ held₂ pend₂ c₂ ⟨inv₂, here₂, known₂⟩ c₃ inv₃ rely
  have opened : D.Open held₂ pend₂ c₃ (V a) :=
    Open.later (fun _ member => member) rely here₂
  have done := opened.now inv₃
  have known₃ := (R' a).stays (fun _ member => member) rely known₂
  have committed := allowed a held₂ c₃ _ inv₃ done known₃
  refine ⟨opened.allowed inv₃ fun _ => committed, committed.1, ⟨rfl, rfl⟩, ?_⟩
  exact after a held₂ c₃ _ inv₃ committed.1 done known₃

/-- `catch` outside a transaction. -/
theorem leads_tryCatch {x : Txn Db Lock Err α} {handler : Err → Txn Db Lock Err α}
    {V : Db → Db → Prop} (runs : D.Leads G .outside T F x (fun _ => V) R)
    (handles : ∀ e, D.Leads G .outside T Fact.nothing (handler e) (fun _ => V) R) :
    D.Leads G .outside T F (Txn.tryCatch x handler) (fun _ => V) R := by
  intro held pend c inv here known
  refine runs_tryCatch (Runs.mono (fun _ _ _ _ post => post) ?_ (runs held pend c inv here known))
  rintro e held' pend' c' ⟨rfl, rfl, inv'⟩
  exact handles e [] id c' inv' ⟨rfl, rfl⟩ trivial

/-- A client that runs such code is safe. -/
theorem Leads.safe {x : Txn Db Lock Err α} (leads : D.Leads G .outside T F x U R) (inv : D.inv c)
    (known : F.holds [] c) : D.Safe G (fun _ _ _ _ => True) x [] id c :=
  Safe.mono (fun _ _ _ _ _ => trivial) (leads [] id c inv ⟨rfl, rfl⟩ known)

end Finstack.Foundation.Discipline
