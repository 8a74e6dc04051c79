import Finstack.Foundation.RelyGuarantee

/-! # Rules for transactions

One rule for each way of writing a transaction body: values and errors, statements of the open
transaction, statements on a connection of their own, sequencing, `transaction` and `tryCatch`. A
specification names what holds when the code returns (`R`) and what holds when it throws (`E`).
-/

namespace Finstack.Foundation.Discipline

open Locking

variable {Db Lock Err α β : Type} [Guarding Db Lock] {D : Discipline Db} [Locking Lock]
  {G : Db → Db → Prop} {E : Err → List Lock → (Db → Db) → Db → Prop}

/-- The postcondition of code that returns a value with `R` or throws with `E`. -/
def Outcome (E : Err → List Lock → (Db → Db) → Db → Prop)
    (R : α → List Lock → (Db → Db) → Db → Prop) :
    Except Err α → List Lock → (Db → Db) → Db → Prop
  | .ok a, held, pend, c => R a held pend c
  | .error e, held, pend, c => E e held pend c

variable (D) in
/-- Safety of code that may throw. -/
def Runs (G : Db → Db → Prop) (E : Err → List Lock → (Db → Db) → Db → Prop)
    (R : α → List Lock → (Db → Db) → Db → Prop) (x : Txn Db Lock Err α) (held : List Lock)
    (pend : Db → Db) (c : Db) : Prop :=
  D.Safe G (Outcome E R) x held pend c

variable {R : α → List Lock → (Db → Db) → Db → Prop} {held : List Lock} {pend : Db → Db} {c : Db}

@[simp] theorem runs_pure {a : α} :
    D.Runs G E R (pure a : Txn Db Lock Err α) held pend c ↔ R a held pend c := Iff.rfl

@[simp] theorem runs_throw {e : Err} :
    D.Runs G E R (Txn.throw e : Txn Db Lock Err α) held pend c ↔ E e held pend c := Iff.rfl

theorem runs_bind {S : β → List Lock → (Db → Db) → Db → Prop} {x : Txn Db Lock Err α}
    {f : α → Txn Db Lock Err β} : D.Runs G E S (x >>= f) held pend c ↔
      D.Runs G E (fun a held pend c => D.Runs G E S (f a) held pend c) x held pend c := by
  refine (safe_bind (p := x)).trans ?_
  constructor
  · refine Safe.mono fun r held pend c safe => ?_
    cases r <;> exact safe
  · refine Safe.mono fun r held pend c safe => ?_
    cases r <;> exact safe

theorem Runs.mono {R' : α → List Lock → (Db → Db) → Db → Prop}
    {E' : Err → List Lock → (Db → Db) → Db → Prop} {x : Txn Db Lock Err α}
    (values : ∀ a held pend c, R a held pend c → R' a held pend c)
    (errors : ∀ e held pend c, E e held pend c → E' e held pend c) (runs : D.Runs G E R x held pend c) :
    D.Runs G E' R' x held pend c := by
  refine Safe.mono (fun r held pend c post => ?_) runs
  cases r with
  | ok a => exact values a held pend c post
  | error e => exact errors e held pend c post

theorem Runs.and {R' : α → List Lock → (Db → Db) → Db → Prop}
    {E' : Err → List Lock → (Db → Db) → Db → Prop} {x : Txn Db Lock Err α}
    (first : D.Runs G E R x held pend c) (second : D.Runs G E' R' x held pend c) :
    D.Runs G (fun e held pend c => E e held pend c ∧ E' e held pend c)
      (fun a held pend c => R a held pend c ∧ R' a held pend c) x held pend c := by
  refine Safe.mono (fun r held pend c both => ?_) (Safe.and first second)
  cases r <;> exact both

theorem runs_statement {locks : List Lock} {run : Db → Except Err (α × (Db → Db))} :
    D.Runs G E R (Txn.statement locks run) held pend c ↔
      ∀ c', D.inv c' → D.Rely held c c' →
        (∀ e, run (pend c') = .error e → E e (locks ++ held) pend c') ∧
        ∀ a write, run (pend c') = .ok (a, write) → R a (locks ++ held) (write ∘ pend) c' := by
  simp only [Runs, Txn.statement, Safe]
  refine forall_congr' fun c' => forall_congr' fun _ => forall_congr' fun _ => ?_
  cases run (pend c') with
  | error e => simp [Except.map, Outcome]
  | ok result =>
    obtain ⟨a, write⟩ := result
    simp [Except.map, Outcome]

theorem runs_query {run : Db → α} : D.Runs G E R (Txn.query run) held pend c ↔
    ∀ c', D.inv c' → D.Rely held c c' → R (run (pend c')) held pend c' := by
  simp [Runs, Txn.query, Safe, Outcome]

theorem runs_select {locks : List Lock} {run : Db → α} :
    D.Runs G E R (Txn.select locks run) held pend c ↔
      ∀ c', D.inv c' → D.Rely held c c' → R (run (pend c')) (locks ++ held) pend c' := by
  simp [Runs, Txn.select, Safe, Outcome]

theorem runs_execute {locks : List Lock} {write : Db → Db}
    {R : Unit → List Lock → (Db → Db) → Db → Prop} :
    D.Runs G E R (Txn.execute locks write) held pend c ↔
      ∀ c', D.inv c' → D.Rely held c c' → R () (locks ++ held) (write ∘ pend) c' := by
  simp [Runs, Txn.execute, Safe, Outcome]

theorem runs_separately {locks : List Lock} {run : Db → Except Err (α × (Db → Db))} :
    D.Runs G E R (Txn.separately locks run) held pend c ↔
      ∀ c', D.inv c' → D.Rely held c c' → (∀ l ∈ locks, ∀ m ∈ held, conflicts l m = false) →
        (∀ e, run c' = .error e → E e held pend c') ∧
        ∀ a write, run c' = .ok (a, write) →
          D.Allowed G locks c' (write c') ∧ R a held pend (write c') := by
  simp only [Runs, Txn.separately, Safe]
  refine forall_congr' fun c' => forall_congr' fun _ => forall_congr' fun _ =>
    forall_congr' fun _ => ?_
  cases run c' with
  | error e => simp [Except.map, Outcome, Allowed]
  | ok result =>
    obtain ⟨a, write⟩ := result
    simp [Except.map, Outcome]

theorem runs_queryCommitted {run : Db → α} :
    D.Runs G E R (Txn.queryCommitted run) held pend c ↔
      ∀ c', D.inv c' → D.Rely held c c' → R (run c') held pend c' := by
  simp [Runs, Txn.queryCommitted, Safe, Outcome, Allowed]

/-- A transaction: where its body and the checks at commit end, the commit has to be allowed; an
error rolls everything back. -/
theorem runs_transaction {atCommit : Txn Db Lock Err Unit} {body : Txn Db Lock Err α}
    {E' : Err → List Lock → (Db → Db) → Db → Prop}
    (rolledBack : ∀ e held pend c c', D.inv c' → D.Rely held c c' → E' e held pend c → E e [] id c')
    (safe : D.Runs G E' (fun a held pend c => D.Runs G E' (fun _ held pend c =>
        ∀ c', D.inv c' → D.Rely held c c' →
          D.Allowed G held c' (pend c') ∧ R a [] id (pend c')) atCommit held pend c)
      body held pend c) :
    D.Runs G E R (Txn.transaction atCommit body) held pend c := by
  let Ready : α → List Lock → (Db → Db) → Db → Prop := fun a held pend c =>
    ∀ c', D.inv c' → D.Rely held c c' → D.Allowed G held c' (pend c') ∧ R a [] id (pend c')
  have inner : D.Runs G E' Ready (body >>= fun a => atCommit >>= fun _ => pure a) held pend c := by
    refine runs_bind.mpr (safe.mono (fun a held pend c checked => ?_) (fun _ _ _ _ error => error))
    exact runs_bind.mpr checked
  refine safe_bind.mpr (Safe.mono ?_ inner)
  rintro (e | a) held pend c post
  · exact fun c' inv rely => rolledBack e held pend c c' inv rely post
  · exact post

/-- `catch`: the handler starts where the code threw. -/
theorem runs_tryCatch {x : Txn Db Lock Err α} {handler : Err → Txn Db Lock Err α}
    (safe : D.Runs G (fun e held pend c => D.Runs G E R (handler e) held pend c) R x held pend c) :
    D.Runs G E R (Txn.tryCatch x handler) held pend c := by
  refine safe_bind.mpr (Safe.mono ?_ safe)
  rintro (e | a) held pend c post <;> exact post

end Finstack.Foundation.Discipline
