import Finstack.Foundation.ReadCommitted
import Finstack.Foundation.Schedule
import Mathlib.Data.Finset.Max
import Mathlib.Data.Fintype.EquivFin
import Mathlib.Data.List.TakeWhile
import Mathlib.Data.Set.Finite.Basic
import Mathlib.Order.RelClasses

/-! # Locks taken one by one

Transactions that lock their resources one after another and keep them to the end. They deadlock
exactly when their sequences cross: some of them can each have locked a part of what they need, with
nothing in common, and each needs next what another of them has locked.
-/

namespace Finstack.Foundation.LockQueue

variable {ι A : Type} {T : ι → List A}

/-- What a transaction has locked and what it still has to lock. It ends without either. -/
structure Place (A : Type) where
  held : List A
  rest : List A
deriving DecidableEq, Repr

structure State (ι A : Type) where
  owner : A → Option ι
  txns : ι → Place A

inductive Action (ι : Type) where
  | lock (i : ι)
  /-- The transaction commits or aborts. -/
  | finish (i : ι)
deriving DecidableEq, Repr

namespace State

def start (T : ι → List A) : State ι A := ⟨fun _ => none, fun i => ⟨[], T i⟩⟩

variable [DecidableEq ι] [DecidableEq A]

def step : Action ι → State ι A → Option (State ι A)
  | .lock i, s =>
    match (s.txns i).rest with
    | [] => none
    | a :: rest =>
      if s.owner a = none ∨ s.owner a = some i then
        some ⟨Function.update s.owner a (some i),
          Function.update s.txns i ⟨(s.txns i).held ++ [a], rest⟩⟩
      else
        none
  | .finish i, s =>
    some ⟨fun a => if s.owner a = some i then none else s.owner a,
      Function.update s.txns i ⟨[], []⟩⟩

/-- `i` waits for a lock that `j` has. -/
def Waits (s : State ι A) (i j : ι) : Prop := (s.txns i).rest.head?.bind s.owner = some j ∧ i ≠ j

instance (s : State ι A) (i j : ι) : Decidable (s.Waits i j) := inferInstanceAs (Decidable (_ ∧ _))

/-- A cycle of transactions that wait for each other. -/
def Deadlocked (s : State ι A) : Prop := ∃ i, Relation.TransGen s.Waits i i

def Reaches : State ι A → State ι A → Prop := Schedule.Reaches step Schedule.Any

end State

/-- What a sequence locks before `a`. -/
def before [DecidableEq A] (sequence : List A) (a : A) : List A :=
  sequence.takeWhile (· ≠ a)

/-- Some of the sequences want, each at some point, what another of them locks before that point, and
have locked nothing in common. -/
def Crosses [DecidableEq A] (T : ι → List A) : Prop :=
  ∃ (S : Finset ι) (want : ι → A), S.Nonempty ∧ (∀ i ∈ S, want i ∈ T i) ∧
    (∀ i ∈ S, ∃ j ∈ S, want i ∈ before (T j) (want j)) ∧
    ∀ i ∈ S, ∀ j ∈ S, i ≠ j → (before (T i) (want i)).Disjoint (before (T j) (want j))

section Before

variable [DecidableEq A]

theorem before_append {held : List A} {a : A} {rest : List A} (new : a ∉ held) :
    before (held ++ a :: rest) a = held := by
  unfold before
  rw [List.takeWhile_append_of_pos]
  · simp
  · intro b member
    simpa using fun same : b = a => new (same ▸ member)

theorem not_mem_before (sequence : List A) (a : A) : a ∉ before sequence a := by
  intro member
  simpa using List.mem_takeWhile_imp member

/-- The sequence up to `a`, and from there. -/
theorem eq_before_append {sequence : List A} {a : A} (member : a ∈ sequence) :
    ∃ rest, sequence = before sequence a ++ a :: rest := by
  have whole := List.takeWhile_append_dropWhile (p := (· ≠ a)) (l := sequence)
  cases tail : sequence.dropWhile (· ≠ a) with
  | nil =>
    rw [List.dropWhile_eq_nil_iff] at tail
    simpa using tail a member
  | cons b rest =>
    have first : (sequence.dropWhile (· ≠ a)).head? = some b := by rw [tail]; rfl
    have same : b = a := by
      have stops := List.head?_dropWhile_not (· ≠ a) sequence
      rw [first] at stops
      simpa using stops
    subst same
    exact ⟨rest, by rw [before, ← tail, whole]⟩

/-- Sequences in one order do not cross. -/
theorem not_crosses_of_sorted [LinearOrder A] (sorted : ∀ i, (T i).Pairwise (· ≤ ·)) :
    ¬ Crosses T := by
  rintro ⟨S, want, nonempty, wanted, locked, -⟩
  obtain ⟨i, member, greatest⟩ := S.exists_max_image want nonempty
  obtain ⟨j, other, earlier⟩ := locked i member
  obtain ⟨rest, split⟩ := eq_before_append (wanted j other)
  have order := sorted j
  rw [split, List.pairwise_append] at order
  have le : want i ≤ want j := order.2.2 _ earlier _ List.mem_cons_self
  have same : want i = want j := le_antisymm le (greatest j other)
  exact not_mem_before _ _ (same ▸ earlier)

end Before

namespace State

variable [DecidableEq ι] [DecidableEq A] {s s' : State ι A} {i j : ι}

/-- Locks have the owners that hold them, and every transaction is at some point of its sequence. -/
structure Inv (T : ι → List A) (s : State ι A) : Prop where
  owned : ∀ a i, s.owner a = some i ↔ a ∈ (s.txns i).held
  sequence : ∀ i, s.txns i = ⟨[], []⟩ ∨ (s.txns i).held ++ (s.txns i).rest = T i
  finite : {i | (s.txns i).held ≠ []}.Finite

omit [DecidableEq ι] [DecidableEq A] in
theorem Inv.start (T : ι → List A) : Inv T (start T) where
  owned := by simp [State.start]
  sequence i := .inr rfl
  finite := by
    have none : {i | ((State.start T).txns i).held ≠ []} = ∅ := by simp [State.start]
    rw [none]
    exact Set.finite_empty

theorem step_lock {a : A} {rest : List A} (next : (s.txns i).rest = a :: rest) :
    step (.lock i) s = if s.owner a = none ∨ s.owner a = some i then
      some ⟨Function.update s.owner a (some i),
        Function.update s.txns i ⟨(s.txns i).held ++ [a], rest⟩⟩ else none := by
  simp only [State.step, next]

theorem Inv.lock (inv : Inv T s) {a : A} {rest : List A} (next : (s.txns i).rest = a :: rest)
    (free : s.owner a = none ∨ s.owner a = some i) :
    Inv T ⟨Function.update s.owner a (some i),
      Function.update s.txns i ⟨(s.txns i).held ++ [a], rest⟩⟩ where
  owned b j := by
    rcases eq_or_ne b a with rfl | new <;> rcases eq_or_ne j i with rfl | other
    · simp
    · have theirs := inv.owned b j
      simp only [Function.update_self, Function.update_of_ne other, Option.some.injEq]
      rw [← theirs]
      rcases free with none | mine
      · simp [none, other.symm]
      · simp [mine]
    · simp [new, inv.owned b j]
    · simp [new, other, inv.owned b j]
  sequence j := by
    rcases eq_or_ne j i with rfl | other
    · right
      rcases inv.sequence j with ended | whole
      · rw [ended] at next
        cases next
      · simpa [next] using whole
    · simpa [other] using inv.sequence j
  finite := by
    apply (inv.finite.insert i).subset
    intro j holds
    rcases eq_or_ne j i with rfl | other
    · exact Set.mem_insert _ _
    · exact Set.mem_insert_of_mem _ (by simpa [other] using holds)

omit [DecidableEq A] in
theorem Inv.finish (inv : Inv T s) (i : ι) :
    Inv T ⟨fun a => if s.owner a = some i then none else s.owner a,
      Function.update s.txns i ⟨[], []⟩⟩ where
  owned a j := by
    rcases eq_or_ne j i with rfl | other
    · simp
    · have theirs := inv.owned a j
      simp only [Function.update_of_ne other, ← theirs]
      split_ifs with mine
      · simp [mine, other.symm]
      · rfl
  sequence j := by
    rcases eq_or_ne j i with rfl | other
    · simp
    · simpa [other] using inv.sequence j
  finite := by
    apply inv.finite.subset
    intro j holds
    rcases eq_or_ne j i with rfl | other
    · simp at holds
    · simpa [other] using holds

theorem Inv.step {action : Action ι} (inv : Inv T s) (steps : step action s = some s') :
    Inv T s' := by
  cases action with
  | lock i =>
    cases next : (s.txns i).rest with
    | nil => simp [State.step, next] at steps
    | cons a rest =>
      rw [step_lock next] at steps
      split_ifs at steps with free
      cases steps
      exact inv.lock next free
  | finish i =>
    cases steps
    exact inv.finish i

theorem Inv.of_reaches (reaches : Reaches (.start T) s) : Inv T s :=
  Schedule.Reaches.invariant reaches (Inv T) (fun _ _ _ inv _ steps => inv.step steps) (.start T)

/-! ## A deadlock is a crossing -/

omit [DecidableEq ι] [DecidableEq A] in
theorem waits_iff : s.Waits i j ↔
    ∃ a rest, (s.txns i).rest = a :: rest ∧ s.owner a = some j ∧ i ≠ j := by
  unfold Waits
  cases (s.txns i).rest with
  | nil => simp
  | cons a rest => simp

omit [DecidableEq ι] in
/-- Who waits has locked what it needs before the lock that it waits for. -/
theorem Inv.waits (inv : Inv T s) (waits : s.Waits i j) :
    ∃ a ∈ T i, before (T i) a = (s.txns i).held ∧ a ∈ (s.txns j).held := by
  obtain ⟨a, rest, next, taken, other⟩ := waits_iff.mp waits
  have new : a ∉ (s.txns i).held := by
    intro mine
    rw [← inv.owned, taken] at mine
    exact other (Option.some.inj mine).symm
  have whole : (s.txns i).held ++ a :: rest = T i := by
    rcases inv.sequence i with ended | whole
    · rw [ended] at next
      cases next
    · rw [← whole, next]
  refine ⟨a, ?_, ?_, (inv.owned a j).mp taken⟩
  · rw [← whole]
    simp
  · rw [← whole]
    exact before_append new

omit [DecidableEq ι] in
theorem Inv.crosses (inv : Inv T s) (deadlocked : s.Deadlocked) : Crosses T := by
  obtain ⟨i, cycle⟩ := deadlocked
  -- the transactions on a cycle through `i`; each waits for one of them
  let S := {j | Relation.TransGen s.Waits i j ∧ Relation.TransGen s.Waits j i}
  have waits : ∀ j ∈ S, ∃ k ∈ S, s.Waits j k := by
    rintro j ⟨there, back⟩
    rcases Relation.TransGen.head'_iff.mp back with ⟨k, first, rest⟩
    refine ⟨k, ⟨there.tail first, ?_⟩, first⟩
    rcases Relation.reflTransGen_iff_eq_or_transGen.mp rest with rfl | rest
    · exact cycle
    · exact rest
  have finite : S.Finite := by
    apply inv.finite.subset
    rintro j ⟨there, -⟩
    obtain ⟨k, -, last⟩ := Relation.TransGen.tail'_iff.mp there
    obtain ⟨a, -, -, locked⟩ := inv.waits last
    exact List.ne_nil_of_mem locked
  obtain ⟨a, -⟩ := inv.waits (waits i ⟨cycle, cycle⟩).choose_spec.2
  have wants : ∀ j ∈ S, ∃ b, b ∈ T j ∧ before (T j) b = (s.txns j).held ∧
      ∃ k ∈ S, b ∈ (s.txns k).held := by
    intro j member
    obtain ⟨k, other, edge⟩ := waits j member
    obtain ⟨b, wanted, prior, locked⟩ := inv.waits edge
    exact ⟨b, wanted, prior, k, other, locked⟩
  have : Nonempty A := ⟨a⟩
  choose! want wanted prior locked using wants
  refine ⟨finite.toFinset, want, ⟨i, by simpa using ⟨cycle, cycle⟩⟩, ?_, ?_, ?_⟩
  · intro j member
    exact wanted j (finite.mem_toFinset.mp member)
  · intro j member
    obtain ⟨k, other, holds⟩ := locked j (finite.mem_toFinset.mp member)
    exact ⟨k, finite.mem_toFinset.mpr other, prior k other ▸ holds⟩
  · intro j member k other apart b mine theirs
    rw [prior j (finite.mem_toFinset.mp member), ← inv.owned] at mine
    rw [prior k (finite.mem_toFinset.mp other), ← inv.owned, mine] at theirs
    exact apart (Option.some.inj theirs)

/-! ## A crossing is a deadlock -/

/-- What a transaction is about to lock, if nobody else has locked any of it. -/
theorem reaches_locks {held locks rest : List A} (at_ : s.txns i = ⟨held, locks ++ rest⟩)
    (free : ∀ a ∈ locks, s.owner a = none ∨ s.owner a = some i) :
    Reaches s ⟨fun a => if a ∈ locks then some i else s.owner a,
      Function.update s.txns i ⟨held ++ locks, rest⟩⟩ := by
  induction locks generalizing s held with
  | nil =>
    have same : Function.update s.txns i ⟨held ++ [], rest⟩ = s.txns := by
      rw [List.append_nil, ← show s.txns i = ⟨held, rest⟩ from at_, Function.update_eq_self]
    simp only [List.not_mem_nil, if_false, same]
    exact .refl
  | cons a locks ih =>
    have first : step (.lock i) s = some ⟨Function.update s.owner a (some i),
        Function.update s.txns i ⟨held ++ [a], locks ++ rest⟩⟩ := by
      have next : (s.txns i).rest = a :: (locks ++ rest) := by rw [at_]; rfl
      rw [step_lock next, if_pos (free a List.mem_cons_self), at_]
    have later := @ih ⟨Function.update s.owner a (some i),
        Function.update s.txns i ⟨held ++ [a], locks ++ rest⟩⟩ (held ++ [a])
      (Function.update_self ..) (by
        intro b member
        rcases eq_or_ne b a with rfl | other
        · simp
        · simpa [other] using free b (List.mem_cons_of_mem _ member))
    have owners : (fun b => if b ∈ a :: locks then some i else s.owner b) =
        fun b => if b ∈ locks then some i else Function.update s.owner a (some i) b := by
      funext b
      rcases eq_or_ne b a with rfl | other
      · simp
      · simp [other]
    rw [owners]
    rw [List.append_assoc, Function.update_idem] at later
    exact later.head ⟨.lock i, trivial, first⟩

/-- Transactions that have each locked a part of its sequence, with nothing in common. -/
theorem reaches_prefixes {parts rests : ι → List A} (S : Finset ι)
    (split : ∀ i ∈ S, T i = parts i ++ rests i)
    (apart : ∀ i ∈ S, ∀ j ∈ S, i ≠ j → (parts i).Disjoint (parts j)) :
    ∃ s, Reaches (.start T) s ∧ (∀ i ∈ S, s.txns i = ⟨parts i, rests i⟩) ∧
      (∀ i ∉ S, s.txns i = ⟨[], T i⟩) ∧ ∀ a i, s.owner a = some i ↔ i ∈ S ∧ a ∈ parts i := by
  induction S using Finset.induction_on with
  | empty => exact ⟨_, .refl, by simp, fun _ _ => rfl, by simp [start]⟩
  | insert i S new ih =>
    obtain ⟨s, reaches, locked, waiting, owned⟩ := ih
      (fun j member => split j (Finset.mem_insert_of_mem member))
      fun j member k other => apart j (Finset.mem_insert_of_mem member) k
        (Finset.mem_insert_of_mem other)
    have at_ : s.txns i = ⟨[], parts i ++ rests i⟩ := by
      rw [waiting i new, split i (Finset.mem_insert_self ..)]
    have free : ∀ a ∈ parts i, s.owner a = none ∨ s.owner a = some i := by
      intro a member
      left
      rw [Option.eq_none_iff_forall_ne_some]
      intro j taken
      obtain ⟨other, theirs⟩ := (owned a j).mp taken
      have different : i ≠ j := fun same => new (same ▸ other)
      exact apart i (Finset.mem_insert_self ..) j (Finset.mem_insert_of_mem other) different
        member theirs
    refine ⟨_, reaches.trans (reaches_locks at_ free), ?_, ?_, ?_⟩
    · intro j member
      rcases eq_or_ne j i with rfl | other
      · simp
      · simpa [other] using locked j (Finset.mem_of_mem_insert_of_ne member other)
    · intro j absent
      obtain ⟨other, absent⟩ : j ≠ i ∧ j ∉ S := by simpa using absent
      simpa [other] using waiting j absent
    · intro a j
      dsimp only
      split_ifs with mine
      · constructor
        · rintro ⟨⟩
          exact ⟨Finset.mem_insert_self .., mine⟩
        · rintro ⟨member, theirs⟩
          by_contra other
          have different : i ≠ j := fun same => other (congrArg some same)
          exact apart i (Finset.mem_insert_self ..) j member different mine theirs
      · rw [owned, Finset.mem_insert]
        constructor
        · rintro ⟨member, theirs⟩
          exact ⟨.inr member, theirs⟩
        · rintro ⟨rfl | member, theirs⟩
          · exact (mine theirs).elim
          · exact ⟨member, theirs⟩

omit [DecidableEq ι] in
/-- Where everyone in a finite set has a successor there, somebody is on a cycle. -/
theorem exists_cycle {W : ι → ι → Prop} {S : Finset ι} (nonempty : S.Nonempty)
    (serial : ∀ i ∈ S, ∃ j ∈ S, W i j) : ∃ i, Relation.TransGen W i i := by
  by_contra acyclic
  push Not at acyclic
  let later (i j : S) : Prop := Relation.TransGen W j i
  have : IsTrans S later := ⟨fun _ _ _ left right => right.trans left⟩
  have : Std.Irrefl later := ⟨fun i => acyclic i⟩
  have wellFounded := Finite.wellFounded_of_trans_of_irrefl later
  obtain ⟨i, member⟩ := nonempty
  obtain ⟨⟨j, there⟩, -, last⟩ := wellFounded.has_min Set.univ ⟨⟨i, member⟩, trivial⟩
  obtain ⟨k, other, edge⟩ := serial j there
  exact last ⟨k, other⟩ trivial (.single edge)

theorem deadlocked_of_crosses (crosses : Crosses T) : ∃ s, Reaches (.start T) s ∧ s.Deadlocked := by
  obtain ⟨S, want, nonempty, wanted, locked, apart⟩ := crosses
  have splits : ∀ i, ∃ rest, i ∈ S → T i = before (T i) (want i) ++ want i :: rest := by
    intro i
    by_cases member : i ∈ S
    · obtain ⟨rest, split⟩ := eq_before_append (wanted i member)
      exact ⟨rest, fun _ => split⟩
    · exact ⟨[], fun absurd => (member absurd).elim⟩
  choose rest split using splits
  obtain ⟨s, reaches, at_, -, owned⟩ := reaches_prefixes S split apart
  refine ⟨s, reaches, exists_cycle nonempty fun i member => ?_⟩
  obtain ⟨j, other, earlier⟩ := locked i member
  refine ⟨j, other, waits_iff.mpr ⟨want i, rest i, ?_, (owned _ _).mpr ⟨other, earlier⟩, ?_⟩⟩
  · rw [at_ i member]
  · rintro rfl
    exact not_mem_before _ _ earlier

/-- Transactions can come to a deadlock exactly when their sequences cross. -/
theorem deadlock_iff_crosses : (∃ s, Reaches (.start T) s ∧ s.Deadlocked) ↔ Crosses T := by
  constructor
  · rintro ⟨s, reaches, deadlocked⟩
    exact (Inv.of_reaches reaches).crosses deadlocked
  · exact deadlocked_of_crosses

end State

/-! ## Programs that take the locks of a sequence -/

section Programs

variable {Db Lock Err α β : Type}

/-- Until its transaction ends, the program takes the locks on `A` in the order of `rest`, one a
statement, besides the ones that it has `taken`, and `Q` holds when it returns. -/
def Takes (of : Lock → Option A) (Q : α → List A → List A → Prop) :
    Prog Db Lock α → List A → List A → Prop
  | .ret a, taken, rest => Q a taken rest
  | .stmt locks _ next, taken, rest =>
    ((∀ a ∈ locks.filterMap of, a ∈ taken) ∧ ∀ view, Takes of Q (next view) taken rest) ∨
      ∃ a rest', rest = a :: rest' ∧ locks.filterMap of = [a] ∧
        ∀ view, Takes of Q (next view) (taken ++ [a]) rest'
  | .auto locks _ next, taken, rest => locks.filterMap of = [] ∧ ∀ db, Takes of Q (next db) taken rest
  | .commit _, _, _ | .rollback _, _, _ => True

variable {of : Lock → Option A} {taken rest : List A}

theorem Takes.mono {Q Q' : α → List A → List A → Prop}
    (imp : ∀ a taken rest, Q a taken rest → Q' a taken rest) {p : Prog Db Lock α}
    (takes : Takes of Q p taken rest) : Takes of Q' p taken rest := by
  induction p generalizing taken rest with
  | ret a => exact imp a taken rest takes
  | stmt locks write next ih =>
    rcases takes with ⟨old, after⟩ | ⟨a, rest', split, new, after⟩
    · exact .inl ⟨old, fun view => ih view (after view)⟩
    · exact .inr ⟨a, rest', split, new, fun view => ih view (after view)⟩
  | auto locks write next ih => exact ⟨takes.1, fun db => ih db (takes.2 db)⟩
  | commit | rollback => trivial

theorem takes_bind {Q : Except Err β → List A → List A → Prop} {x : Txn Db Lock Err α}
    {f : α → Txn Db Lock Err β}
    (takes : Takes of (fun result taken rest => match result with
      | .ok a => Takes of Q (f a) taken rest
      | .error e => Q (.error e) taken rest) x taken rest) :
    Takes of Q (x >>= f : Txn Db Lock Err β) taken rest := by
  change Takes of Q (Prog.bind x _) taken rest
  induction (x : Prog Db Lock (Except Err α)) generalizing taken rest with
  | ret result => cases result <;> exact takes
  | stmt locks write next ih =>
    rcases takes with ⟨old, after⟩ | ⟨a, rest', split, new, after⟩
    · exact .inl ⟨old, fun view => ih view (after view)⟩
    · exact .inr ⟨a, rest', split, new, fun view => ih view (after view)⟩
  | auto locks write next ih => exact ⟨takes.1, fun db => ih db (takes.2 db)⟩
  | commit | rollback => trivial

/-- A statement without such locks. -/
theorem takes_statement {Q : Except Err α → List A → List A → Prop} {locks : List Lock}
    {run : Db → Except Err (α × (Db → Db))} (old : ∀ a ∈ locks.filterMap of, a ∈ taken)
    (next : ∀ result, Q result taken rest) :
    Takes of Q (Txn.statement locks run : Txn Db Lock Err α) taken rest :=
  .inl ⟨old, fun _ => next _⟩

theorem takes_query {Q : Except Err α → List A → List A → Prop} {run : Db → α}
    (next : ∀ a, Q (.ok a) taken rest) :
    Takes of Q (Txn.query run : Txn Db Lock Err α) taken rest :=
  .inl ⟨by simp, fun _ => next _⟩

/-- A statement that locks the next of the sequence. -/
theorem takes_select {Q : Except Err α → List A → List A → Prop} {lock : Lock} {a : A}
    {run : Db → α} (is : of lock = some a) (next : ∀ result, Q (.ok result) (taken ++ [a]) rest) :
    Takes of Q (Txn.select [lock] run : Txn Db Lock Err α) taken (a :: rest) :=
  .inr ⟨a, rest, rfl, by simp [is], fun _ => next _⟩

end Programs

end Finstack.Foundation.LockQueue
