import Finstack.Foundation.Pending
import Finstack.Model.Database

/-! # Statements of an open transaction

Rules for the statements the services are made of. Each keeps the transaction open and adds what
the statement read or wrote to what the transaction will have done when it commits.
-/

namespace Finstack

open Foundation Discipline

variable {α : Type} {D : Discipline Db} {G T : Db → Db → Prop} 
  {E : Err → List RowLock → (Db → Db) → Db → Prop} {R : α → List RowLock → (Db → Db) → Db → Prop}
  {held locks : List RowLock} {pend : Db → Db} {c : Db}

@[simp] theorem runs_ret {result : Except Err α} :
    D.Runs G E R (Prog.ret result : DbTxn α) held pend c ↔ Outcome E R result held pend c := Iff.rfl

theorem runs_check {result : Except Err Unit} {R : Unit → List RowLock → (Db → Db) → Db → Prop}
    (fails : ∀ e, result = .error e → E e held pend c) (passes : result = .ok () → R () held pend c) :
    D.Runs G E R (check result) held pend c := by
  cases result with
  | error e => exact fails e rfl
  | ok _ => exact passes rfl

theorem runs_orFail {entity : String} {row : Option α}
    (absent : row = none → E (.entityNotFound entity) held pend c)
    (present : ∀ a, row = some a → R a held pend c) :
    D.Runs G E R (orFail entity row) held pend c := by
  cases row with
  | none => exact absent rfl
  | some a => exact present a rfl

/-- A read within the open transaction, of what others may have committed meanwhile. -/
theorem runs_read {read : Db → α} (opened : D.Open held pend c T)
    (next : ∀ c', D.inv c' → D.Rely held c c' → D.Open held pend c' T →
      R (read (pend c')) held pend c') :
    D.Runs G E R (Txn.query read) held pend c :=
  runs_query.mpr fun c' inv rely => next c' inv rely (opened.later (fun _ member => member) rely)

/-- A locking read: what it returns stays true of the view. -/
theorem runs_lock {read : Db → α} (opened : D.Open held pend c T)
    (guarded : ∀ a, GuardedBy locks fun db => read db = a)
    (next : ∀ c', D.inv c' → D.Rely held c c' →
      D.Open (locks ++ held) pend c' (fun a b => T a b ∧ read b = read (pend c')) →
      R (read (pend c')) (locks ++ held) pend c') :
    D.Runs G E R (Txn.select locks read) held pend c := by
  refine runs_select.mpr fun c' inv rely => next c' inv rely ?_
  have later := opened.later (fun l => List.mem_append_right locks) rely
  exact later.saw ((guarded _).mono fun l => List.mem_append_left held) rfl

/-- A statement the database may refuse. -/
theorem runs_checked {test : Db → Except DatabaseError Unit} {write : Db → Db}
    {R : Unit → List RowLock → (Db → Db) → Db → Prop} (opened : D.Open held pend c T)
    (writes : Writes locks write) (guarded : GuardedBy locks fun db => test db = .ok ())
    (fails : ∀ c' e, D.inv c' → D.Rely held c c' → test (pend c') = .error e →
      E (.database e) (locks ++ held) pend c')
    (passes : ∀ c', D.inv c' → D.Rely held c c' → test (pend c') = .ok () →
      D.Open (locks ++ held) (write ∘ pend) c' (andThen T (fun m => test m = .ok ()) write) →
      R () (locks ++ held) (write ∘ pend) c') :
    D.Runs G E R (Txn.statement locks fun db => databaseCheck (test db) write) held pend c := by
  refine runs_statement.mpr fun c' inv rely => ?_
  cases result : test (pend c') with
  | error e =>
    refine ⟨fun e' failed => ?_, fun _ _ done => by simp [databaseCheck] at done⟩
    obtain rfl : Err.database e = e' := by simpa [databaseCheck] using failed
    exact fails c' e inv rely result
  | ok _ =>
    refine ⟨fun _ failed => by simp [databaseCheck] at failed, fun _ w done => ?_⟩
    obtain rfl : write = w := by simpa [databaseCheck] using done
    have later := opened.later (fun l => List.mem_append_right locks) rely
    exact passes c' inv rely result (later.wrote (guarded.mono fun l => List.mem_append_left held)
      result (writes.mono fun l => List.mem_append_left held))

/-- A statement on a connection of its own, beside the open transaction. -/
theorem runs_beside {run : Db → Except Err (α × (Db → Db))} (opened : D.Open held pend c T)
    (fails : ∀ c' e, D.inv c' → D.Rely held c c' → run c' = .error e → E e held pend c')
    (allowed : ∀ c' a write, D.inv c' → run c' = .ok (a, write) →
      D.Allowed G locks c' (write c') ∧ (write c' = c' ∨ D.change c' (write c')))
    (next : ∀ c' a write, D.inv c' → D.Rely held c c' → run c' = .ok (a, write) →
      D.Rely held c (write c') → D.Open held pend (write c') T → R a held pend (write c')) :
    D.Runs G E R (Txn.separately locks run) held pend c := by
  refine runs_separately.mpr fun c' inv rely free =>
    ⟨fun e => fails c' e inv rely, fun a write done => ?_⟩
  obtain ⟨own, change⟩ := allowed c' a write inv done
  have frame : ∀ l, (∀ m ∈ locks, Locking.conflicts m l = false) →
      observe c' l = observe (write c') l := by
    rcases own with same | ⟨_, _, frame⟩
    · exact fun l _ => by rw [same]
    · exact frame
  have upto := rely.trans (.of_change inv change frame free)
  exact ⟨own, next c' a write inv rely done upto (opened.later (fun _ member => member) upto)⟩

/-- A read on a connection of its own. -/
theorem runs_readCommitted {read : Db → α} (opened : D.Open held pend c T)
    (next : ∀ c', D.inv c' → D.Rely held c c' → D.Open held pend c' T →
      R (read c') held pend c') :
    D.Runs G E R (Txn.queryCommitted read) held pend c :=
  runs_queryCommitted.mpr fun c' inv rely =>
    next c' inv rely (opened.later (fun _ member => member) rely)

end Finstack
