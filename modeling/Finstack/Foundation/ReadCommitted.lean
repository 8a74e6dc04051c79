import Mathlib.Data.Fintype.Basic
import Mathlib.Logic.Relation
import Mathlib.Logic.Function.Basic

/-! # Database programs under READ COMMITTED

A client's code is a tree of database statements. A statement reads the committed state with the
client's own uncommitted writes on top, takes row locks that are kept to the end of the
transaction, and adds a write. A client waits while another client holds a conflicting lock, and a
statement that waited sees what was committed in the meantime. Code outside the transaction's
connection commits its statements one by one.

Nothing here depends on what the database holds: `Db` is any type of states, `Lock` any type of
lockable things with a conflict relation.
-/

namespace Finstack.Foundation

/-- Which locks two transactions cannot hold at once. -/
class Locking (Lock : Type) where
  conflicts : Lock → Lock → Bool
  symm : ∀ a b, conflicts a b = conflicts b a

/-- A client's database program with result `α`. -/
inductive Prog (Db Lock α : Type) : Type
  | ret (result : α)
  /-- A statement of the open transaction; `write` and `next` get the view it sees. -/
  | stmt (locks : List Lock) (write : Db → Db → Db) (next : Db → Prog Db Lock α)
  /-- A statement on another connection, committed at once; it sees committed rows only. -/
  | auto (locks : List Lock) (write : Db → Db) (next : Db → Prog Db Lock α)
  | commit (next : Prog Db Lock α)
  | rollback (next : Prog Db Lock α)

namespace Prog

variable {Db Lock α β : Type}

def bind : Prog Db Lock α → (α → Prog Db Lock β) → Prog Db Lock β
  | .ret a, f => f a
  | .stmt locks write next, f => .stmt locks write fun view => (next view).bind f
  | .auto locks write next, f => .auto locks write fun db => (next db).bind f
  | .commit next, f => .commit (next.bind f)
  | .rollback next, f => .rollback (next.bind f)

end Prog

/-- A program that ends with a value or an error. -/
def Txn (Db Lock Err α : Type) : Type := Prog Db Lock (Except Err α)

namespace Txn

variable {Db Lock Err α β : Type}

def pure (a : α) : Txn Db Lock Err α := Prog.ret (.ok a)

/-- Ends the program with an error; nothing after it runs. -/
def throw (e : Err) : Txn Db Lock Err α := Prog.ret (.error e)

def bind (x : Txn Db Lock Err α) (f : α → Txn Db Lock Err β) : Txn Db Lock Err β :=
  Prog.bind x fun
    | .ok a => f a
    | .error e => Prog.ret (.error e)

instance : Monad (Txn Db Lock Err) where
  pure := pure
  bind := bind

/-- `try x catch handler`. -/
def tryCatch (x : Txn Db Lock Err α) (handler : Err → Txn Db Lock Err α) : Txn Db Lock Err α :=
  Prog.bind x fun
    | .ok a => Prog.ret (.ok a)
    | .error e => handler e

/-- A statement of the open transaction: a failing one has no effect. -/
def statement (locks : List Lock) (run : Db → Except Err (α × (Db → Db))) : Txn Db Lock Err α :=
  .stmt locks
    (fun view => match run view with
      | .ok (_, write) => write
      | .error _ => id)
    (fun view => .ret ((run view).map Prod.fst))

/-- A statement that only reads, without locks. -/
def query (run : Db → α) : Txn Db Lock Err α :=
  .stmt [] (fun _ => id) (fun view => .ret (.ok (run view)))

/-- A read of rows locked for the rest of the transaction. -/
def select (locks : List Lock) (run : Db → α) : Txn Db Lock Err α :=
  .stmt locks (fun _ => id) (fun view => .ret (.ok (run view)))

/-- A write of locked rows that cannot fail. -/
def execute (locks : List Lock) (write : Db → Db) : Txn Db Lock Err Unit :=
  .stmt locks (fun _ => write) (fun _ => .ret (.ok ()))

/-- A statement on a connection of its own, committed at once. -/
def separately (locks : List Lock) (run : Db → Except Err (α × (Db → Db))) : Txn Db Lock Err α :=
  .auto locks
    (fun db => match run db with
      | .ok (_, write) => write db
      | .error _ => db)
    (fun db => .ret ((run db).map Prod.fst))

/-- A read on a connection of its own. -/
def queryCommitted (run : Db → α) : Txn Db Lock Err α :=
  .auto [] id (fun db => .ret (.ok (run db)))

/-- Runs `body` in a transaction: an error rolls it back, a value commits it. `atCommit` is what
the database itself does before it commits (deferred constraints). -/
def transaction (atCommit : Txn Db Lock Err Unit) (body : Txn Db Lock Err α) :
    Txn Db Lock Err α :=
  Prog.bind (body.bind fun a => atCommit.bind fun _ => pure a) fun
    | .ok a => .commit (.ret (.ok a))
    | .error e => .rollback (.ret (.error e))

end Txn

/-- A client at work: the rest of its program, the locks of its open transaction and the
uncommitted writes of that transaction, as the change they make to a committed state. -/
structure Session (Db Lock α : Type) where
  prog : Prog Db Lock α
  held : List Lock
  pend : Db → Db

namespace Session

variable {Db Lock α : Type}

/-- What a client's next statement does to the committed state and to the client. -/
def step (db : Db) : Session Db Lock α → Option (Db × Session Db Lock α)
  | ⟨.ret _, _, _⟩ => none
  | ⟨.stmt locks write next, held, pend⟩ =>
      some (db, ⟨next (pend db), locks ++ held, write (pend db) ∘ pend⟩)
  | ⟨.auto _ write next, held, pend⟩ => some (write db, ⟨next db, held, pend⟩)
  | ⟨.commit next, _, pend⟩ => some (pend db, ⟨next, [], id⟩)
  | ⟨.rollback next, _, _⟩ => some (db, ⟨next, [], id⟩)

end Session

/-- The committed state and the clients; a crashed client is gone, with its locks and its
uncommitted writes. -/
structure Config (Db Lock ι α : Type) where
  committed : Db
  sessions : ι → Option (Session Db Lock α)

namespace Config

variable {Db Lock ι α : Type} [Locking Lock] [DecidableEq ι]

open Locking

/-- Client `j` holds nothing that conflicts with these locks. -/
def Free (σ : Config Db Lock ι α) (j : ι) (locks : List Lock) : Prop :=
  ∀ s, σ.sessions j = some s → ∀ l ∈ locks, ∀ m ∈ s.held, conflicts l m = false

/-- Client `i` need not wait: nobody else has the locks of its next statement. A statement on a
connection of its own also waits for the client's own transaction. -/
def Ready (σ : Config Db Lock ι α) (i : ι) : Prog Db Lock α → Prop
  | .stmt locks _ _ => ∀ j, j ≠ i → σ.Free j locks
  | .auto locks _ _ => ∀ j, σ.Free j locks
  | _ => True

/-- The configuration after client `i` became `s` and `db` was committed. -/
def set (σ : Config Db Lock ι α) (i : ι) (db : Db) (s : Session Db Lock α) :
    Config Db Lock ι α where
  committed := db
  sessions := Function.update σ.sessions i (some s)

/-- One statement of client `i`. -/
inductive Step (i : ι) (σ : Config Db Lock ι α) : Config Db Lock ι α → Prop
  | run {s s' : Session Db Lock α} {db : Db} (running : σ.sessions i = some s)
      (ready : σ.Ready i s.prog) (next : s.step σ.committed = some (db, s')) :
      Step i σ (σ.set i db s')

/-- A client disappears: its transaction is rolled back. -/
inductive Crash (σ : Config Db Lock ι α) : Config Db Lock ι α → Prop
  | crash (i : ι) : Crash σ { σ with sessions := Function.update σ.sessions i none }

/-- Something outside the clients changes the committed state, such as the clock. -/
inductive Outside (env : Db → Db → Prop) (σ : Config Db Lock ι α) : Config Db Lock ι α → Prop
  | move {db : Db} (change : env σ.committed db) : Outside env σ { σ with committed := db }

/-- All clients before their first statement. -/
def start (db : Db) (calls : ι → Prog Db Lock α) : Config Db Lock ι α where
  committed := db
  sessions i := some ⟨calls i, [], id⟩

/-- Interleavings without crashes. -/
def Runs : Config Db Lock ι α → Config Db Lock ι α → Prop :=
  Relation.ReflTransGen fun σ σ' => ∃ i, Step i σ σ'

/-- One step of anybody: a statement of a client, a crash or a move of the environment. -/
def Moves (env : Db → Db → Prop) (σ σ' : Config Db Lock ι α) : Prop :=
  (∃ i, Step i σ σ') ∨ Crash σ σ' ∨ Outside env σ σ'

/-- Interleavings with crashes and moves of the environment. -/
def Reaches (env : Db → Db → Prop) : Config Db Lock ι α → Config Db Lock ι α → Prop :=
  Relation.ReflTransGen (Moves env)

theorem Runs.reaches {env : Db → Db → Prop} {σ σ' : Config Db Lock ι α} (run : Runs σ σ') :
    Reaches env σ σ' := by
  induction run with
  | refl => exact .refl
  | tail _ step ih => exact ih.tail (.inl step)

/-- Client `i` has ended with `a`. -/
def Returned (σ : Config Db Lock ι α) (i : ι) (a : α) : Prop :=
  ∃ held pend, σ.sessions i = some ⟨.ret a, held, pend⟩

/-- No client can go on. -/
def Stuck (σ : Config Db Lock ι α) : Prop := ∀ i σ', ¬ Step i σ σ'

/-! ## One client alone -/

end Config

namespace Prog

variable {Db Lock α β : Type}

/-- What a program comes to when nobody else moves: its result, locks, uncommitted writes and the
committed state. There is none for a statement that waits for the client's own transaction. -/
def alone : Prog Db Lock α → List Lock → (Db → Db) → Db →
    Option (α × List Lock × (Db → Db) × Db)
  | .ret a, held, pend, db => some (a, held, pend, db)
  | .stmt locks write next, held, pend, db =>
      (next (pend db)).alone (locks ++ held) (write (pend db) ∘ pend) db
  | .auto [] write next, held, pend, db => (next db).alone held pend (write db)
  | .auto (_ :: _) _ _, _, _, _ => none
  | .commit next, _, pend, db => next.alone [] id (pend db)
  | .rollback next, _, _, db => next.alone [] id db

end Prog

namespace Config

variable {Db Lock ι α : Type} [Locking Lock] [DecidableEq ι]

open Locking

omit [Locking Lock] in
@[simp] theorem set_committed (σ : Config Db Lock ι α) (i : ι) (db : Db)
    (s : Session Db Lock α) : (σ.set i db s).committed = db := rfl

omit [Locking Lock] in
@[simp] theorem set_sessions_self (σ : Config Db Lock ι α) (i : ι) (db : Db)
    (s : Session Db Lock α) : (σ.set i db s).sessions i = some s := by
  simp [set]

omit [Locking Lock] in
theorem set_sessions_ne (σ : Config Db Lock ι α) {i j : ι} (db : Db) (s : Session Db Lock α)
    (other : j ≠ i) : (σ.set i db s).sessions j = σ.sessions j := by
  simp [set, other]

omit [Locking Lock] in
theorem set_set (σ : Config Db Lock ι α) (i : ι) (db db' : Db) (s s' : Session Db Lock α) :
    (σ.set i db s).set i db' s' = σ.set i db' s' := by
  simp [set]

/-- The clients other than `i` hold no locks. -/
def Idle (σ : Config Db Lock ι α) (i : ι) : Prop :=
  ∀ j, j ≠ i → ∀ s, σ.sessions j = some s → s.held = []

omit [Locking Lock] in
theorem Idle.set {σ : Config Db Lock ι α} {i : ι} (idle : σ.Idle i) (db : Db)
    (s : Session Db Lock α) : (σ.set i db s).Idle i := by
  intro j other s' present
  rw [set_sessions_ne σ db s other] at present
  exact idle j other s' present

omit [DecidableEq ι] in
theorem Idle.free {σ : Config Db Lock ι α} {i j : ι} (idle : σ.Idle i) (other : j ≠ i)
    (locks : List Lock) : σ.Free j locks := by
  intro s present l _ m member
  rw [idle j other s present] at member
  cases member

private theorem runs_first {σ : Config Db Lock ι α} {i : ι} {s s₁ s' : Session Db Lock α}
    {db₁ db' : Db} (running : σ.sessions i = some s) (ready : σ.Ready i s.prog)
    (next : s.step σ.committed = some (db₁, s₁))
    (rest : Runs (σ.set i db₁ s₁) ((σ.set i db₁ s₁).set i db' s')) :
    Runs σ (σ.set i db' s') := by
  rw [set_set] at rest
  exact .head ⟨i, .run running ready next⟩ rest

/-- While the other clients hold no locks, client `i` can run to its end. -/
theorem runs_alone {i : ι} {p : Prog Db Lock α} {held held' : List Lock} {pend pend' : Db → Db}
    {db' : Db} {a : α} (σ : Config Db Lock ι α)
    (ends : p.alone held pend σ.committed = some (a, held', pend', db'))
    (running : σ.sessions i = some ⟨p, held, pend⟩) (idle : σ.Idle i) :
    Runs σ (σ.set i db' ⟨.ret a, held', pend'⟩) := by
  induction p generalizing σ held pend with
  | ret b =>
    obtain ⟨rfl, rfl, rfl, rfl⟩ : b = a ∧ held = held' ∧ pend = pend' ∧ σ.committed = db' := by
      simpa [Prog.alone] using ends
    have same : σ.set i σ.committed ⟨.ret b, held, pend⟩ = σ := by
      simp only [set, ← running, Function.update_eq_self]
    rw [same]
    exact .refl
  | stmt locks write next ih =>
    exact runs_first running (fun _ other => idle.free other locks) rfl
      (ih _ (σ.set i _ _) ends (by simp) (idle.set _ _))
  | auto locks write next ih =>
    cases locks with
    | nil =>
      have ready : σ.Ready i (.auto [] write next) := by
        intro j s _ l member
        cases member
      exact runs_first running ready rfl (ih _ (σ.set i _ _) ends (by simp) (idle.set _ _))
    | cons => cases ends
  | commit next ih =>
    exact runs_first running trivial rfl (ih (σ.set i _ _) ends (by simp) (idle.set _ _))
  | rollback next ih =>
    exact runs_first running trivial rfl (ih (σ.set i _ _) ends (by simp) (idle.set _ _))

/-! ## Executing a given schedule -/

section Schedule

variable [Fintype ι]

instance (σ : Config Db Lock ι α) (j : ι) (locks : List Lock) : Decidable (σ.Free j locks) :=
  match h : σ.sessions j with
  | none => isTrue (by intro s running; simp [h] at running)
  | some s => decidable_of_iff (∀ l ∈ locks, ∀ m ∈ s.held, conflicts l m = false) (by
      constructor
      · rintro free s' running
        obtain rfl := Option.some.inj (h.symm.trans running)
        exact free
      · exact fun free => free s h)

instance (σ : Config Db Lock ι α) (i : ι) (p : Prog Db Lock α) : Decidable (σ.Ready i p) := by
  cases p <;> unfold Ready <;> infer_instance

/-- Client `i`'s next statement, when there is one and it need not wait. -/
def step? (σ : Config Db Lock ι α) (i : ι) : Option (Config Db Lock ι α) :=
  (σ.sessions i).bind fun s =>
    if σ.Ready i s.prog then (s.step σ.committed).map fun (db, s') => σ.set i db s' else none

theorem step?_sound {σ σ' : Config Db Lock ι α} {i : ι} (success : σ.step? i = some σ') :
    Step i σ σ' := by
  simp only [step?, Option.bind_eq_some_iff] at success
  obtain ⟨s, running, success⟩ := success
  split_ifs at success with ready
  obtain ⟨⟨db, s'⟩, next, rfl⟩ := Option.map_eq_some_iff.mp success
  exact .run running ready next

/-- Runs the clients in the given order, one statement each. -/
def schedule (σ : Config Db Lock ι α) : List ι → Option (Config Db Lock ι α)
  | [] => some σ
  | i :: rest => (σ.step? i).bind fun σ' => σ'.schedule rest

theorem schedule_sound {order : List ι} {σ σ' : Config Db Lock ι α}
    (success : σ.schedule order = some σ') : Runs σ σ' := by
  induction order generalizing σ with
  | nil =>
    obtain rfl := Option.some.inj success
    exact .refl
  | cons i rest ih =>
    obtain ⟨middle, first, later⟩ := Option.bind_eq_some_iff.mp success
    exact .head ⟨i, step?_sound first⟩ (ih later)

/-- What client `i` has ended with. -/
def returned? (σ : Config Db Lock ι α) (i : ι) : Option α :=
  match σ.sessions i with
  | some ⟨.ret a, _, _⟩ => some a
  | _ => none

omit [Locking Lock] [DecidableEq ι] [Fintype ι] in
theorem returned?_sound {σ : Config Db Lock ι α} {i : ι} {a : α}
    (ended : σ.returned? i = some a) : σ.Returned i a := by
  unfold returned? at ended
  split at ended
  · rename_i held pend running
    obtain rfl := Option.some.inj ended
    exact ⟨held, pend, running⟩
  · cases ended

end Schedule

end Config

end Finstack.Foundation
