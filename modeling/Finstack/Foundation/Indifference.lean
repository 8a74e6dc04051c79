import Finstack.Foundation.ReadCommitted

/-! # Changes a program does not notice

A change of the state that a program neither sees nor writes over: in every interleaving each of its
statements does the same on the changed state, and locks on what is changed are none of its own.
-/

namespace Finstack.Foundation

variable {Db Lock Err α β : Type} {f : Db → Db} {asks : Lock → Prop}

namespace Prog

/-- The program does the same when the state is changed by `f`, and asks only for these locks. -/
def Indifferent (f : Db → Db) (asks : Lock → Prop) : Prog Db Lock α → Prop
  | .ret _ => True
  | .stmt locks write next => (∀ l ∈ locks, asks l) ∧
      (∀ view, write (f view) = write view ∧ next (f view) = next view ∧
        ∀ db, write view (f db) = f (write view db)) ∧ ∀ view, (next view).Indifferent f asks
  | .auto locks write next => (∀ l ∈ locks, asks l) ∧
      (∀ db, write (f db) = f (write db) ∧ next (f db) = next db) ∧
        ∀ db, (next db).Indifferent f asks
  | .commit next | .rollback next => next.Indifferent f asks

/-- The locks of the next statement. -/
def nextLocks : Prog Db Lock α → List Lock
  | .stmt locks _ _ | .auto locks _ _ => locks
  | _ => []

theorem Indifferent.bind {p : Prog Db Lock α} {k : α → Prog Db Lock β}
    (indifferent : p.Indifferent f asks) (rest : ∀ a, (k a).Indifferent f asks) :
    (p.bind k).Indifferent f asks := by
  induction p with
  | ret a => exact rest a
  | stmt locks write next ih =>
    obtain ⟨mine, same, after⟩ := indifferent
    refine ⟨mine, fun view => ⟨(same view).1, ?_, (same view).2.2⟩, fun view => ih view (after view)⟩
    exact congrArg (·.bind k) (same view).2.1
  | auto locks write next ih =>
    obtain ⟨mine, same, after⟩ := indifferent
    refine ⟨mine, fun db => ⟨(same db).1, ?_⟩, fun db => ih db (after db)⟩
    exact congrArg (·.bind k) (same db).2
  | commit next ih => exact ih indifferent
  | rollback next ih => exact ih indifferent

end Prog

namespace Txn

/-- `Prog.Indifferent` for code that may throw. -/
abbrev Indifferent (f : Db → Db) (asks : Lock → Prop) (x : Txn Db Lock Err α) : Prop :=
  Prog.Indifferent f asks x

theorem indifferent_ret {result : Except Err α} :
    Indifferent f asks (Prog.ret result : Txn Db Lock Err α) := trivial

theorem indifferent_pure {a : α} : Indifferent f asks (pure a : Txn Db Lock Err α) := trivial

theorem indifferent_throw {e : Err} : Indifferent f asks (throw e : Txn Db Lock Err α) := trivial

theorem indifferent_bind {x : Txn Db Lock Err α} {k : α → Txn Db Lock Err β}
    (indifferent : Indifferent f asks x) (rest : ∀ a, Indifferent f asks (k a)) :
    Indifferent f asks (x >>= k) := by
  refine Prog.Indifferent.bind indifferent fun result => ?_
  cases result with
  | ok a => exact rest a
  | error e => trivial

theorem indifferent_statement {locks : List Lock} {run : Db → Except Err (α × (Db → Db))}
    (mine : ∀ l ∈ locks, asks l) (same : ∀ view, run (f view) = run view)
    (commutes : ∀ view a write, run view = .ok (a, write) → ∀ db, write (f db) = f (write db)) :
    Indifferent f asks (statement locks run) := by
  refine ⟨mine, fun view => ⟨by simp only [same], by simp only [same], fun db => ?_⟩, fun _ => trivial⟩
  cases result : run view with
  | error e => simp only [result, id]
  | ok done => simpa only [result] using commutes view done.1 done.2 result db

theorem indifferent_query {run : Db → α} (same : ∀ view, run (f view) = run view) :
    Indifferent f asks (query run : Txn Db Lock Err α) :=
  ⟨by simp, fun view => ⟨rfl, by simp only [same], fun _ => rfl⟩, fun _ => trivial⟩

theorem indifferent_select {locks : List Lock} {run : Db → α} (mine : ∀ l ∈ locks, asks l)
    (same : ∀ view, run (f view) = run view) :
    Indifferent f asks (select locks run : Txn Db Lock Err α) :=
  ⟨mine, fun view => ⟨rfl, by simp only [same], fun _ => rfl⟩, fun _ => trivial⟩

theorem indifferent_execute {locks : List Lock} {write : Db → Db} (mine : ∀ l ∈ locks, asks l)
    (commutes : ∀ db, write (f db) = f (write db)) :
    Indifferent f asks (execute locks write : Txn Db Lock Err Unit) :=
  ⟨mine, fun _ => ⟨rfl, rfl, commutes⟩, fun _ => trivial⟩

/-- Code may read what is changed as long as it goes on in the same way. -/
theorem indifferent_queryCommitted {run : Db → α} {k : α → Txn Db Lock Err β}
    (same : ∀ db, k (run (f db)) = k (run db)) (rest : ∀ a, Indifferent f asks (k a)) :
    Indifferent f asks (queryCommitted run >>= k) :=
  ⟨by simp, fun db => ⟨rfl, same db⟩, fun db => rest (run db)⟩

theorem indifferent_transaction {atCommit : Txn Db Lock Err Unit} {body : Txn Db Lock Err α}
    (checks : Indifferent f asks atCommit) (indifferent : Indifferent f asks body) :
    Indifferent f asks (transaction atCommit body) := by
  have inner : Indifferent f asks (body >>= fun a => atCommit >>= fun _ => pure a) :=
    indifferent_bind indifferent fun _ => indifferent_bind checks fun _ => indifferent_pure
  refine Prog.Indifferent.bind inner fun result => ?_
  cases result <;> trivial

end Txn

/-! ## In every interleaving -/

/-- The rest of the program is indifferent, and so are its uncommitted writes. -/
structure Session.Indifferent (f : Db → Db) (asks : Lock → Prop) (s : Session Db Lock α) : Prop where
  prog : s.prog.Indifferent f asks
  pend : ∀ db, s.pend (f db) = f (s.pend db)

theorem Session.Indifferent.step {s s' : Session Db Lock α} {db db' : Db}
    (indifferent : s.Indifferent f asks) (next : s.step db = some (db', s')) :
    s.step (f db) = some (f db', s') ∧ s'.Indifferent f asks := by
  obtain ⟨p, held, pend⟩ := s
  obtain ⟨prog, commutes⟩ := indifferent
  dsimp only at prog commutes
  cases p with
  | ret a => cases next
  | stmt locks write k =>
    cases next
    obtain ⟨-, same, rest⟩ := prog
    obtain ⟨writes, goes, apart⟩ := same (pend db)
    refine ⟨?_, rest _, fun c => ?_⟩
    · simp only [Session.step, commutes, writes, goes]
    · exact (congrArg (write (pend db)) (commutes c)).trans (apart (pend c))
  | auto locks write k =>
    cases next
    obtain ⟨-, same, rest⟩ := prog
    exact ⟨by simp only [Session.step, (same db).1, (same db).2], rest _, commutes⟩
  | commit k =>
    cases next
    exact ⟨by simp only [Session.step, commutes], prog, fun _ => rfl⟩
  | rollback k =>
    cases next
    exact ⟨rfl, prog, fun _ => rfl⟩

namespace Config

variable {ι : Type} [Locking Lock] [DecidableEq ι] {env : Db → Db → Prop}
  {σ σ' : Config Db Lock ι α} {i : ι}

/-- The same clients on another committed state. -/
def recommit (f : Db → Db) (σ : Config Db Lock ι α) : Config Db Lock ι α :=
  { σ with committed := f σ.committed }

/-- Client `i` is indifferent, if it is still there. -/
def Indifferent (f : Db → Db) (asks : Lock → Prop) (i : ι) (σ : Config Db Lock ι α) : Prop :=
  ∀ s, σ.sessions i = some s → s.Indifferent f asks

theorem Indifferent.step (indifferent : σ.Indifferent f asks i) {j : ι} (step : Step j σ σ') :
    σ'.Indifferent f asks i := by
  obtain ⟨present, ready, next⟩ := step
  intro s running
  by_cases own : i = j
  · subst own
    rw [set_sessions_self] at running
    obtain rfl := Option.some.inj running
    exact ((indifferent _ present).step next).2
  · rw [set_sessions_ne _ _ _ own] at running
    exact indifferent s running

/-- A client stays indifferent, whatever the others do. -/
theorem Reaches.indifferent {db : Db} {calls : ι → Prog Db Lock α}
    (indifferent : (calls i).Indifferent f asks) (run : Reaches env (start db calls) σ) :
    σ.Indifferent f asks i := by
  induction run with
  | refl =>
    intro s running
    obtain rfl := Option.some.inj running
    exact ⟨indifferent, fun _ => rfl⟩
  | tail _ move ih =>
    rcases move with ⟨j, step⟩ | crash | outside
    · exact ih.step step
    · obtain ⟨j⟩ := crash
      intro s running
      by_cases own : i = j
      · subst own
        simp at running
      · simp only [Function.update_of_ne own] at running
        exact ih s running
    · obtain ⟨change⟩ := outside
      exact ih

/-- A statement of an indifferent client does the same on the changed state, and nothing else. -/
theorem Step.recommit_iff (indifferent : σ.Indifferent f asks i) {τ : Config Db Lock ι α} :
    Step i (σ.recommit f) τ ↔ ∃ σ', Step i σ σ' ∧ τ = σ'.recommit f := by
  constructor
  · rintro ⟨running, ready, next⟩
    rename_i s s' db
    obtain ⟨⟨db', s''⟩, next'⟩ : ∃ result, s.step σ.committed = some result := by
      obtain ⟨p, held, pend⟩ := s
      cases p with
      | ret a => cases next
      | _ => exact ⟨_, rfl⟩
    have same := ((indifferent _ running).step next').1
    obtain ⟨rfl, rfl⟩ := Prod.mk.inj (Option.some.inj (same.symm.trans next))
    exact ⟨_, .run running ready next', rfl⟩
  · rintro ⟨σ', ⟨running, ready, next⟩, rfl⟩
    exact .run (σ := σ.recommit f) running ready ((indifferent _ running).step next).1

/-- Whatever an indifferent client does alone, up to its end, it does as well on the changed state. -/
theorem alone_recommit_iff (indifferent : σ.Indifferent f asks i) {τ : Config Db Lock ι α} :
    Relation.ReflTransGen (Step i) (σ.recommit f) τ ↔
      ∃ σ', Relation.ReflTransGen (Step i) σ σ' ∧ τ = σ'.recommit f := by
  have stays : ∀ σ', Relation.ReflTransGen (Step i) σ σ' → σ'.Indifferent f asks i := by
    intro σ' run
    induction run with
    | refl => exact indifferent
    | tail _ step ih => exact ih.step step
  constructor
  · intro run
    induction run with
    | refl => exact ⟨σ, .refl, rfl⟩
    | tail _ step ih =>
      obtain ⟨middle, before, rfl⟩ := ih
      obtain ⟨σ', next, rfl⟩ := (Step.recommit_iff (stays middle before)).mp step
      exact ⟨σ', before.tail next, rfl⟩
  · rintro ⟨σ', run, rfl⟩
    induction run with
    | refl => exact .refl
    | tail before step ih => exact ih.tail ((Step.recommit_iff (stays _ before)).mpr ⟨_, step, rfl⟩)

omit [DecidableEq ι] in
/-- Whoever holds only locks that an indifferent client does not ask for keeps it waiting nowhere. -/
theorem free_of_indifferent {s : Session Db Lock α} (indifferent : s.Indifferent f asks) {j : ι}
    (others : ∀ t, σ.sessions j = some t → ∀ m ∈ t.held, ∀ l, asks l → Locking.conflicts l m = false) :
    σ.Free j s.prog.nextLocks := by
  intro t present l member m theirs
  refine others t present m theirs l ?_
  obtain ⟨p, held, pend⟩ := s
  obtain ⟨prog, -⟩ := indifferent
  cases p with
  | stmt locks write next => exact prog.1 l member
  | auto locks write next => exact prog.1 l member
  | _ => cases member

end Config

end Finstack.Foundation
