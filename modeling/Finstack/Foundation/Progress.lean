import Finstack.Foundation.RelyGuarantee
import Mathlib.Algebra.Order.BigOperators.Group.List
import Mathlib.Algebra.Order.Ring.Nat
import Mathlib.Data.DFinsupp.WellFounded

/-! # Progress

Programs are finite, so finitely many clients take finitely many steps. Where every client locks
in one order and ends without locks, no configuration is stuck before all of them have ended.
-/

namespace Finstack.Foundation

open Locking

namespace Prog

variable {Db Lock α β : Type}

/-! ## Programs that lock in order -/

/-- Every statement locks only what the client has locked or what ranks above all it has locked,
statements on a connection of their own wait for nobody, and `Q` holds of the locks at the end. -/
def Ordered (rank : Lock → Nat) (Q : α → List Lock → Prop) : Prog Db Lock α → List Lock → Prop
  | .ret a, held => Q a held
  | .stmt locks _ next, held =>
      (∀ l ∈ locks, l ∈ held ∨ ∀ m ∈ held, rank m < rank l) ∧
        ∀ view, Ordered rank Q (next view) (locks ++ held)
  | .auto locks _ next, held => locks = [] ∧ ∀ db, Ordered rank Q (next db) held
  | .commit next, _ => Ordered rank Q next []
  | .rollback next, _ => Ordered rank Q next []

variable {rank : Lock → Nat}

theorem Ordered.mono {Q Q' : α → List Lock → Prop} (imp : ∀ a held, Q a held → Q' a held)
    {p : Prog Db Lock α} {held : List Lock} (ordered : p.Ordered rank Q held) :
    p.Ordered rank Q' held := by
  induction p generalizing held with
  | ret a => exact imp a held ordered
  | stmt locks write next ih => exact ⟨ordered.1, fun view => ih view (ordered.2 view)⟩
  | auto locks write next ih => exact ⟨ordered.1, fun db => ih db (ordered.2 db)⟩
  | commit next ih => exact ih ordered
  | rollback next ih => exact ih ordered

theorem ordered_bind {Q : β → List Lock → Prop} {p : Prog Db Lock α} {f : α → Prog Db Lock β}
    {held : List Lock} : (p.bind f).Ordered rank Q held ↔
      p.Ordered rank (fun a held => (f a).Ordered rank Q held) held := by
  induction p generalizing held with
  | ret a => rfl
  | stmt locks write next ih => simp only [bind, Ordered, ih]
  | auto locks write next ih => simp only [bind, Ordered, ih]
  | commit next ih => simp only [bind, Ordered, ih]
  | rollback next ih => simp only [bind, Ordered, ih]

/-- A client alone never waits for itself, so it ends. -/
theorem Ordered.alone {Q : α → List Lock → Prop} {p : Prog Db Lock α} {held : List Lock}
    (ordered : p.Ordered rank Q held) (pend : Db → Db) (db : Db) :
    ∃ a held' pend' db', p.alone held pend db = some (a, held', pend', db') := by
  induction p generalizing held pend db with
  | ret a => exact ⟨a, held, pend, db, rfl⟩
  | stmt locks write next ih => exact ih _ (ordered.2 _) _ _
  | auto locks write next ih =>
    obtain ⟨rfl, rest⟩ := ordered
    exact ih _ (rest _) _ _
  | commit next ih => exact ih ordered _ _
  | rollback next ih => exact ih ordered _ _

/-! ## Programs end -/

/-- What a program can become by one statement. -/
inductive Next : Prog Db Lock α → Prog Db Lock α → Prop
  | stmt {locks write next} (view : Db) : Next (next view) (.stmt locks write next)
  | auto {locks write next} (db : Db) : Next (next db) (.auto locks write next)
  | commit {next} : Next next (.commit next)
  | rollback {next} : Next next (.rollback next)

theorem next_wellFounded : WellFounded (Next : Prog Db Lock α → Prog Db Lock α → Prop) := by
  constructor
  intro p
  induction p with
  | ret a => exact ⟨_, fun q step => by cases step⟩
  | stmt locks write next ih => exact ⟨_, fun q step => by cases step with | stmt view => exact ih view⟩
  | auto locks write next ih => exact ⟨_, fun q step => by cases step with | auto db => exact ih db⟩
  | commit next ih => exact ⟨_, fun q step => by cases step; exact ih⟩
  | rollback next ih => exact ⟨_, fun q step => by cases step; exact ih⟩

end Prog

namespace Txn

variable {Db Lock Err α β : Type} {rank : Lock → Nat}

/-- `Prog.Ordered` for code that may throw. -/
abbrev Ordered (rank : Lock → Nat) (Q : Except Err α → List Lock → Prop) (x : Txn Db Lock Err α)
    (held : List Lock) : Prop :=
  Prog.Ordered rank Q x held

theorem ordered_bind {Q : Except Err β → List Lock → Prop} {x : Txn Db Lock Err α}
    {f : α → Txn Db Lock Err β} {held : List Lock} :
    Ordered rank Q (x >>= f) held ↔ Ordered rank (fun result held => match result with
      | .ok a => Ordered rank Q (f a) held
      | .error e => Q (.error e) held) x held := by
  refine (Prog.ordered_bind (p := x)).trans ⟨?_, ?_⟩
  · exact Prog.Ordered.mono fun result held ordered => by cases result <;> exact ordered
  · exact Prog.Ordered.mono fun result held ordered => by cases result <;> exact ordered

/-- A transaction ends without locks, whatever its body locks. -/
theorem ordered_transaction {Q : Except Err α → List Lock → Prop} {atCommit : Txn Db Lock Err Unit}
    {body : Txn Db Lock Err α} {held : List Lock} (ends : ∀ result, Q result [])
    (ordered : Ordered rank (fun _ held => Ordered rank (fun _ _ => True) atCommit held)
      body held) : Ordered rank Q (Txn.transaction atCommit body) held := by
  have inner : Ordered rank (fun (_ : Except Err α) _ => True)
      (body >>= fun a => atCommit >>= fun _ => pure a) held := by
    refine ordered_bind.mpr (Prog.Ordered.mono (fun result held after => ?_) ordered)
    cases result with
    | error e => trivial
    | ok a =>
      refine ordered_bind.mpr (Prog.Ordered.mono (fun done held _ => ?_) after)
      cases done <;> trivial
  refine Prog.ordered_bind.mpr (Prog.Ordered.mono (fun result held _ => ?_) inner)
  cases result <;> exact ends _

theorem ordered_tryCatch {Q : Except Err α → List Lock → Prop} {x : Txn Db Lock Err α}
    {handler : Err → Txn Db Lock Err α} {held : List Lock}
    (ordered : Ordered rank (fun result held => match result with
      | .ok a => Q (.ok a) held
      | .error e => Ordered rank Q (handler e) held) x held) :
    Ordered rank Q (Txn.tryCatch x handler) held := by
  refine Prog.ordered_bind.mpr (Prog.Ordered.mono (fun result held after => ?_) ordered)
  cases result <;> exact after

end Txn

namespace Session

variable {Db Lock α : Type}

theorem step_next {s s' : Session Db Lock α} {db db' : Db} (next : s.step db = some (db', s')) :
    Prog.Next s'.prog s.prog := by
  obtain ⟨p, held, pend⟩ := s
  cases p <;> cases next <;> constructor

theorem step_ordered {rank : Lock → Nat} {Q : α → List Lock → Prop} {s s' : Session Db Lock α}
    {db db' : Db} (ordered : s.prog.Ordered rank Q s.held) (next : s.step db = some (db', s')) :
    s'.prog.Ordered rank Q s'.held := by
  obtain ⟨p, held, pend⟩ := s
  cases p with
  | ret a => cases next
  | stmt locks write k => cases next; exact ordered.2 _
  | auto locks write k => cases next; exact ordered.2 _
  | commit k => cases next; exact ordered
  | rollback k => cases next; exact ordered

/-- A session whose program has not ended has a next statement. -/
theorem step_of_unfinished {s : Session Db Lock α} (unfinished : ∀ a, s.prog ≠ .ret a) (db : Db) :
    ∃ db' s', s.step db = some (db', s') := by
  obtain ⟨p, held, pend⟩ := s
  cases p with
  | ret a => exact (unfinished a rfl).elim
  | stmt | auto | commit | rollback => exact ⟨_, _, rfl⟩

end Session

namespace Config

variable {Db Lock ι α : Type} [Locking Lock] [DecidableEq ι]

/-- No interleaving goes on for ever. -/
theorem step_wellFounded [LinearOrder ι] [Finite ι] :
    WellFounded fun σ' σ : Config Db Lock ι α => ∃ i, Step i σ σ' := by
  let remaining (a b : Option (Session Db Lock α)) : Prop :=
    ∃ s s', a = some s' ∧ b = some s ∧ Prog.Next s'.prog s.prog
  have wf : WellFounded remaining := by
    refine ⟨fun a => ?_⟩
    have some_acc : ∀ p : Prog Db Lock α, ∀ s, s.prog = p → Acc remaining (some s) := by
      intro p
      induction p using Prog.next_wellFounded.induction with
      | _ p ih =>
        rintro s rfl
        refine ⟨_, ?_⟩
        rintro _ ⟨t, s', rfl, same, next⟩
        cases same
        exact ih _ next s' rfl
    cases a with
    | none => exact ⟨_, fun _ ⟨_, _, _, absent, _⟩ => by cases absent⟩
    | some s => exact some_acc _ s rfl
  have lex := Pi.Lex.wellFounded (α := fun _ : ι => Option (Session Db Lock α)) (· < ·)
    fun _ => wf
  refine Subrelation.wf (fun {σ' σ} step => ?_) (InvImage.wf sessions lex)
  obtain ⟨i, running, ready, next⟩ := step
  refine ⟨i, fun j before => set_sessions_ne σ _ _ before.ne, ?_⟩
  exact ⟨_, _, set_sessions_self σ i _ _, running, Session.step_next next⟩

/-- Nobody holds a lock. -/
def Unlocked (σ : Config Db Lock ι α) : Prop :=
  ∀ i s, σ.sessions i = some s → s.held = []

omit [Locking Lock] [DecidableEq ι] in
theorem Unlocked.idle {σ : Config Db Lock ι α} (unlocked : σ.Unlocked) (i : ι) : σ.Idle i :=
  fun j _ s present => unlocked j s present

omit [Locking Lock] in
theorem Unlocked.set {σ : Config Db Lock ι α} (unlocked : σ.Unlocked) (i : ι) (db : Db)
    {s : Session Db Lock α} (own : s.held = []) : (σ.set i db s).Unlocked := by
  intro j t present
  by_cases same : j = i
  · subst same
    rw [set_sessions_self] at present
    obtain rfl := Option.some.inj present
    exact own
  · rw [set_sessions_ne _ _ _ same] at present
    exact unlocked j t present

/-- Without crashes nobody disappears. -/
theorem Runs.present {σ σ' : Config Db Lock ι α} (run : Runs σ σ') {i : ι}
    (before : ∃ s, σ.sessions i = some s) : ∃ s, σ'.sessions i = some s := by
  induction run with
  | refl => exact before
  | tail _ step ih =>
    obtain ⟨j, running, ready, next⟩ := step
    by_cases same : i = j
    · subst same
      exact ⟨_, set_sessions_self _ i _ _⟩
    · obtain ⟨s, present⟩ := ih
      exact ⟨s, (set_sessions_ne _ _ _ same).trans present⟩

variable {rank : Lock → Nat}

/-- Every client goes on locking in order, and ends without locks. -/
def LocksInOrder (rank : Lock → Nat) (σ : Config Db Lock ι α) : Prop :=
  ∀ i s, σ.sessions i = some s → s.prog.Ordered rank (fun _ held => held = []) s.held

theorem LocksInOrder.step {σ σ' : Config Db Lock ι α} {i : ι} (ordered : LocksInOrder rank σ)
    (step : Step i σ σ') : LocksInOrder rank σ' := by
  obtain ⟨running, ready, next⟩ := step
  intro j s present
  by_cases same : j = i
  · subst same
    rw [set_sessions_self] at present
    obtain rfl := Option.some.inj present
    exact Session.step_ordered (ordered _ _ running) next
  · rw [set_sessions_ne σ _ _ same] at present
    exact ordered j s present

theorem LocksInOrder.runs {σ σ' : Config Db Lock ι α} (ordered : LocksInOrder rank σ)
    (run : Runs σ σ') : LocksInOrder rank σ' := by
  induction run with
  | refl => exact ordered
  | tail _ step ih => exact ih.step step.choose_spec

/-- Client `i` waits for a lock of this rank that somebody else holds. -/
def Waits (rank : Lock → Nat) (σ : Config Db Lock ι α) (i : ι) (r : Nat) : Prop :=
  ∃ s locks write next, σ.sessions i = some s ∧ s.prog = .stmt locks write next ∧
    ∃ l ∈ locks, rank l = r ∧ ∃ j, j ≠ i ∧ ∃ t, σ.sessions j = some t ∧
      ∃ m ∈ t.held, conflicts l m = true

/-- Nobody shares a lock that excludes others. -/
def Apart (σ : Config Db Lock ι α) : Prop :=
  ∀ i j s t, i ≠ j → σ.sessions i = some s → σ.sessions j = some t →
    ∀ l ∈ s.held, ∀ m ∈ t.held, conflicts l m = false

section Stuck

variable {σ : Config Db Lock ι α} (ordered : LocksInOrder rank σ) (stuck : σ.Stuck)
include ordered stuck

/-- A client that cannot go on has ended or waits. -/
theorem ended_or_waits {i : ι} {s : Session Db Lock α} (running : σ.sessions i = some s) :
    (∃ a, s.prog = .ret a) ∨ ∃ r, Waits rank σ i r := by
  by_contra neither
  push Not at neither
  obtain ⟨unfinished, free⟩ := neither
  obtain ⟨db, s', next⟩ := Session.step_of_unfinished unfinished σ.committed
  refine stuck i _ (.run running ?_ next)
  have own := ordered i s running
  cases program : s.prog with
  | ret a => exact (unfinished a program).elim
  | stmt locks write k =>
    intro j other t present l member m theirs
    by_contra conflict
    exact free (rank l) ⟨s, locks, write, k, running, program, l, member, rfl, j, other, t, present,
      m, theirs, by simpa using conflict⟩
  | auto locks write k =>
    rw [program] at own
    obtain ⟨rfl, -⟩ := own
    intro j t _ l member
    cases member
  | commit k => trivial
  | rollback k => trivial

/-- Who is waited for waits for something of higher rank. -/
theorem Waits.higher (ranked : ∀ a b : Lock, conflicts a b = true → rank a = rank b)
    (apart : σ.Apart) {i : ι} {r : Nat} (waits : Waits rank σ i r) :
    ∃ j r', r < r' ∧ Waits rank σ j r' := by
  obtain ⟨s, locks, write, next, running, program, l, member, rfl, j, other, t, present, m, theirs,
    conflict⟩ := waits
  rcases ended_or_waits ordered stuck present with ⟨a, ended⟩ | ⟨r', waits⟩
  · have own := ordered j t present
    rw [ended] at own
    have nothing : t.held = [] := own
    rw [nothing] at theirs
    cases theirs
  · refine ⟨j, r', ?_, waits⟩
    obtain ⟨t', locks', write', next', present', program', l', member', rfl, k, third, u, there, m',
      theirs', conflict'⟩ := waits
    obtain rfl := Option.some.inj (present.symm.trans present')
    have own := ordered j t present
    rw [program'] at own
    rcases own.1 l' member' with mine | above
    · have free := apart j k t u third.symm present there l' mine m' theirs'
      rw [free] at conflict'
      cases conflict'
    · rw [ranked l m conflict]
      exact above m theirs

/-- Clients that lock in order are never stuck before they have all ended. -/
theorem ended_of_stuck [Finite ι] (ranked : ∀ a b : Lock, conflicts a b = true → rank a = rank b)
    (apart : σ.Apart) {i : ι} {s : Session Db Lock α} (running : σ.sessions i = some s) :
    ∃ a, s.prog = .ret a := by
  rcases ended_or_waits ordered stuck running with ended | ⟨r, waits⟩
  · exact ended
  · -- the ranks that are waited for are ranks of held locks, so they are bounded
    have bound : ∃ top, ∀ j t, σ.sessions j = some t → ∀ m ∈ t.held, rank m ≤ top := by
      have each : ∀ j, ∃ top, ∀ t, σ.sessions j = some t → ∀ m ∈ t.held, rank m ≤ top := by
        intro j
        cases present : σ.sessions j with
        | none => exact ⟨0, fun _ absent => by cases absent⟩
        | some t =>
          refine ⟨(t.held.map rank).sum, ?_⟩
          rintro _ ⟨⟩ m member
          exact List.single_le_sum (fun _ _ => Nat.zero_le _) _ (List.mem_map_of_mem member)
      choose top within using each
      obtain ⟨highest, above⟩ := (Set.finite_range top).bddAbove
      exact ⟨highest, fun j t present m member =>
        (within j t present m member).trans (above ⟨j, rfl⟩)⟩
    obtain ⟨top, within⟩ := bound
    have none_waits : ∀ n i r, top + 1 - r ≤ n → ¬ Waits rank σ i r := by
      intro n
      induction n with
      | zero =>
        intro i r high waits
        obtain ⟨_, _, _, _, _, _, l, _, rfl, j, _, t, present, m, theirs, conflict⟩ := waits
        have low := within j t present m theirs
        rw [← ranked l m conflict] at low
        omega
      | succ n ih =>
        intro i r high waits
        obtain ⟨j, r', above, waits'⟩ := waits.higher ordered stuck ranked apart
        exact ih j r' (by omega) waits'
    exact (none_waits _ i r le_rfl waits).elim

end Stuck

end Config

namespace Discipline

variable {Db Lock α : Type} [Guarding Db Lock] [Locking Lock] {D : Discipline Db}
  {G : Db → Db → Prop} {Q : α → List Lock → (Db → Db) → Db → Prop}

/-- What a safe program comes to alone satisfies its postcondition. -/
theorem Safe.alone {p : Prog Db Lock α} {held held' : List Lock} {pend pend' : Db → Db} {c c' : Db}
    {a : α} (safe : D.Safe G Q p held pend c) (inv : D.inv c)
    (ends : p.alone held pend c = some (a, held', pend', c')) : Q a held' pend' c' := by
  have keep : ∀ {locks : List Lock} {c c' : Db}, D.inv c → D.Allowed G locks c c' → D.inv c' := by
    rintro locks c c' inv (rfl | ⟨inv', _⟩)
    · exact inv
    · exact inv'
  induction p generalizing held pend c with
  | ret b =>
    obtain ⟨rfl, rfl, rfl, rfl⟩ : b = a ∧ held = held' ∧ pend = pend' ∧ c = c' := by
      simpa [Prog.alone] using ends
    exact safe
  | stmt locks write next ih => exact ih _ (safe c inv (.refl held c)) inv ends
  | auto locks write next ih =>
    cases locks with
    | nil =>
      obtain ⟨allowed, rest⟩ := safe c inv (.refl held c) (by simp)
      exact ih _ rest (keep inv allowed) ends
    | cons => cases ends
  | commit next ih =>
    obtain ⟨allowed, rest⟩ := safe c inv (.refl held c)
    exact ih rest (keep inv allowed) ends
  | rollback next ih => exact ih (safe c inv (.refl held c)) inv ends

end Discipline

end Finstack.Foundation
