import Mathlib.Logic.Function.Basic
import Mathlib.Tactic.SplitIfs

/-! # Rows under row locks

A transaction locks a row before it writes it and keeps the lock to its end. What it has written is
a draft that only it sees until it commits. Readers see what is committed.
-/

namespace Finstack.Foundation

/-- Committed rows by key, who has locked each, and what the holder has made of it. -/
structure RowStore (κ ρ ι : Type) where
  rows : κ → Option ρ
  holder : κ → Option ι
  draft : κ → Option (Option ρ)

namespace RowStore

variable {κ ρ ι : Type} [DecidableEq κ] [DecidableEq ι]

/-- Committed rows and no transaction. -/
def start (rows : κ → Option ρ) : RowStore κ ρ ι := ⟨rows, fun _ => none, fun _ => none⟩

/-- The transaction of `i` need not wait for this row. -/
def Free (s : RowStore κ ρ ι) (i : ι) (k : κ) : Prop := s.holder k = none ∨ s.holder k = some i

instance (s : RowStore κ ρ ι) (i : ι) (k : κ) : Decidable (s.Free i k) :=
  inferInstanceAs (Decidable (_ ∨ _))

/-- What the transaction of `i` reads. -/
def view (s : RowStore κ ρ ι) (i : ι) (k : κ) : Option ρ :=
  if s.holder k = some i then (s.draft k).getD (s.rows k) else s.rows k

def lock (i : ι) (k : κ) (s : RowStore κ ρ ι) : RowStore κ ρ ι :=
  if s.holder k = some i then s
  else
    { s with
      holder := Function.update s.holder k (some i)
      draft := Function.update s.draft k none }

/-- Writes a row: an insert, an update or, with `none`, a delete. -/
def write (i : ι) (k : κ) (row : Option ρ) (s : RowStore κ ρ ι) : RowStore κ ρ ι :=
  { s with
    holder := Function.update s.holder k (some i)
    draft := Function.update s.draft k (some row) }

/-- Every lock of `i` is given up. -/
def release (i : ι) (s : RowStore κ ρ ι) : RowStore κ ρ ι :=
  { s with
    holder := fun k => if s.holder k = some i then none else s.holder k
    draft := fun k => if s.holder k = some i then none else s.draft k }

def commit (i : ι) (s : RowStore κ ρ ι) : RowStore κ ρ ι :=
  { s.release i with rows := s.view i }

def rollback (i : ι) (s : RowStore κ ρ ι) : RowStore κ ρ ι := s.release i

variable {s : RowStore κ ρ ι} {i j : ι} {k l : κ} {row : Option ρ}

/-! ## Committed rows -/

omit [DecidableEq κ] in
@[simp] theorem rows_release : (s.release i).rows = s.rows := rfl

omit [DecidableEq κ] in
@[simp] theorem rows_rollback : (s.rollback i).rows = s.rows := rfl

omit [DecidableEq κ] in
@[simp] theorem rows_commit : (s.commit i).rows = s.view i := rfl

@[simp] theorem rows_lock : (s.lock i k).rows = s.rows := by
  unfold lock
  split_ifs <;> rfl

omit [DecidableEq ι] in
@[simp] theorem rows_write : (s.write i k row).rows = s.rows := rfl

/-! ## Who holds a row -/

@[simp] theorem holder_lock_self : (s.lock i k).holder k = some i := by
  unfold lock
  split_ifs with mine
  · exact mine
  · exact Function.update_self ..

theorem holder_lock_ne (other : l ≠ k) : (s.lock i k).holder l = s.holder l := by
  unfold lock
  split_ifs
  · rfl
  · exact Function.update_of_ne other ..

omit [DecidableEq ι] in
@[simp] theorem holder_write_self : (s.write i k row).holder k = some i :=
  Function.update_self ..

omit [DecidableEq ι] in
theorem holder_write_ne (other : l ≠ k) : (s.write i k row).holder l = s.holder l :=
  Function.update_of_ne other ..

/-- Of what `i` gives up, what was held by someone else is left. -/
theorem given_up {h : Option ι} :
    (if h = some i then none else h) = some j ↔ h = some j ∧ j ≠ i := by
  split_ifs with mine
  · constructor
    · exact fun none => (nomatch none)
    · rintro ⟨held, other⟩
      exact (other (Option.some.inj (held.symm.trans mine))).elim
  · constructor
    · intro held
      refine ⟨held, ?_⟩
      rintro rfl
      exact mine held
    · exact And.left

omit [DecidableEq κ] in
theorem holder_release : (s.release i).holder k = some j ↔ s.holder k = some j ∧ j ≠ i :=
  given_up

omit [DecidableEq κ] in
theorem holder_commit : (s.commit i).holder k = some j ↔ s.holder k = some j ∧ j ≠ i :=
  holder_release

omit [DecidableEq κ] in
theorem holder_rollback : (s.rollback i).holder k = some j ↔ s.holder k = some j ∧ j ≠ i :=
  holder_release

omit [DecidableEq κ] [DecidableEq ι] in
/-- Someone else's lock makes a transaction wait. -/
theorem Free.ne (free : s.Free i k) (held : s.holder k = some j) : j = i := by
  rcases free with none | mine
  · rw [none] at held
    cases held
  · exact Option.some.inj (held.symm.trans mine)

/-! ## What transactions see -/

omit [DecidableEq κ] in
theorem view_of_not_held (free : s.holder k ≠ some i) : s.view i k = s.rows k :=
  if_neg free

/-- A fresh lock shows the committed row. -/
theorem view_lock_self (free : s.holder k ≠ some i) : (s.lock i k).view i k = s.rows k := by
  unfold lock
  rw [if_neg free]
  simp [view]

theorem view_lock : (s.lock i k).view i = s.view i := by
  funext l
  unfold lock
  split_ifs with mine
  · rfl
  · rcases eq_or_ne l k with rfl | other
    · simp [view, mine]
    · simp [view, other]

theorem view_lock_other (other : j ≠ i) (free : s.Free i k) : (s.lock i k).view j = s.view j := by
  funext l
  unfold lock
  split_ifs with mine
  · rfl
  · rcases eq_or_ne l k with rfl | different
    · have held : s.holder l ≠ some j := fun held => other (free.ne held)
      simp [view, held, other.symm]
    · simp [view, different]

@[simp] theorem view_write_self : (s.write i k row).view i k = row := by
  simp [view, write]

theorem view_write_ne (other : l ≠ k) : (s.write i k row).view i l = s.view i l := by
  simp [view, write, other]

theorem view_write_other (other : j ≠ i) (free : s.Free i k) :
    (s.write i k row).view j = s.view j := by
  funext l
  rcases eq_or_ne l k with rfl | different
  · have held : s.holder l ≠ some j := fun held => other (free.ne held)
    simp [view, write, held, other.symm]
  · simp [view, write, different]

/-- Only the row that it has written is committed. -/
theorem rows_commit_write (unheld : ∀ k, s.holder k ≠ some i) :
    ((s.write i k row).commit i).rows = Function.update s.rows k row := by
  funext l
  rw [rows_commit]
  rcases eq_or_ne l k with rfl | other
  · rw [view_write_self, Function.update_self]
  · rw [view_write_ne other, Function.update_of_ne other, view_of_not_held (unheld l)]

omit [DecidableEq κ] in
theorem view_rollback (other : j ≠ i) : (s.rollback i).view j = s.view j := by
  funext k
  simp only [view, rollback, release]
  split_ifs with theirs mine mine
  all_goals simp_all

omit [DecidableEq κ] in
/-- A commit of someone else shows in the rows this transaction has not locked. -/
theorem view_commit (other : j ≠ i) (k : κ) :
    (s.commit i).view j k = if s.holder k = some j then s.view j k else s.view i k := by
  simp only [view, commit, release]
  split_ifs with mine theirs theirs
  all_goals simp_all

omit [DecidableEq κ] in
/-- A transaction that has locked nothing has nothing to commit. -/
theorem commit_of_unheld (unheld : ∀ k, s.holder k ≠ some i) : s.commit i = s := by
  have view : s.view i = s.rows := funext fun k => view_of_not_held (unheld k)
  have holder : (s.release i).holder = s.holder := funext fun k => if_neg (unheld k)
  have draft : (s.release i).draft = s.draft := funext fun k => if_neg (unheld k)
  simp only [commit, view, holder, draft]

/-! ## Every version of a row -/

/-- A row that is committed, or that its holder has made. -/
def Shows (s : RowStore κ ρ ι) (k : κ) (r : ρ) : Prop :=
  s.rows k = some r ∨ ∃ j, s.holder k = some j ∧ s.view j k = some r

variable {r : ρ}

omit [DecidableEq κ] in
theorem shows_of_view (seen : s.view i k = some r) : s.Shows k r := by
  by_cases mine : s.holder k = some i
  · exact .inr ⟨i, mine, seen⟩
  · rw [view_of_not_held mine] at seen
    exact .inl seen

theorem shows_lock (free : s.Free i k) (shows_ : (s.lock i k).Shows l r) : s.Shows l r := by
  have same : ∀ j, (s.lock i k).view j = s.view j := by
    intro j
    rcases eq_or_ne j i with rfl | other
    · exact view_lock
    · exact view_lock_other other free
  rcases shows_ with committed | ⟨j, -, seen⟩
  · exact .inl (by simpa using committed)
  · rw [same] at seen
    exact shows_of_view seen

theorem shows_write (free : s.Free i k) (shows_ : (s.write i k row).Shows l r) :
    s.Shows l r ∨ l = k ∧ row = some r := by
  rcases shows_ with committed | ⟨j, held, seen⟩
  · exact .inl (.inl committed)
  · rcases eq_or_ne l k with rfl | other
    · obtain rfl : i = j := by simpa using held
      exact .inr ⟨rfl, by simpa using seen⟩
    · rcases eq_or_ne j i with rfl | theirs
      · rw [view_write_ne other] at seen
        exact .inl (shows_of_view seen)
      · rw [view_write_other theirs free] at seen
        exact .inl (shows_of_view seen)

omit [DecidableEq κ] in
theorem shows_commit (shows_ : (s.commit i).Shows l r) : s.Shows l r := by
  rcases shows_ with committed | ⟨j, held, seen⟩
  · exact shows_of_view committed
  · obtain ⟨held, other⟩ := holder_commit.mp held
    rw [view_commit other, if_pos held] at seen
    exact shows_of_view seen

omit [DecidableEq κ] in
theorem shows_rollback (shows_ : (s.rollback i).Shows l r) : s.Shows l r := by
  rcases shows_ with committed | ⟨j, held, seen⟩
  · exact .inl committed
  · obtain ⟨held, other⟩ := holder_rollback.mp held
    rw [view_rollback other] at seen
    exact shows_of_view seen

/-! ## What the others keep -/

/-- What `j` has locked, and what it has made of it, is as it was. -/
def Keeps (s s' : RowStore κ ρ ι) (j : ι) : Prop :=
  ∀ k, (s'.holder k = some j ↔ s.holder k = some j) ∧
    (s.holder k = some j → s'.rows k = s.rows k ∧ s'.view j k = s.view j k)

omit [DecidableEq κ] in
theorem Keeps.refl (s : RowStore κ ρ ι) (j : ι) : s.Keeps s j :=
  fun _ => ⟨Iff.rfl, fun _ => ⟨rfl, rfl⟩⟩

omit [DecidableEq κ] in
theorem Keeps.trans {s' s'' : RowStore κ ρ ι} (first : s.Keeps s' j) (second : s'.Keeps s'' j) :
    s.Keeps s'' j := by
  intro k
  refine ⟨(second k).1.trans (first k).1, fun held => ?_⟩
  have before := (first k).2 held
  have after := (second k).2 ((first k).1.mpr held)
  exact ⟨after.1.trans before.1, after.2.trans before.2⟩

theorem keeps_lock (other : j ≠ i) (free : s.Free i k) : s.Keeps (s.lock i k) j := by
  intro l
  refine ⟨?_, fun _ => ⟨by rw [rows_lock], congrFun (view_lock_other other free) l⟩⟩
  rcases eq_or_ne l k with rfl | different
  · rw [holder_lock_self]
    exact ⟨fun mine => (other (Option.some.inj mine).symm).elim,
      fun held => (other (free.ne held)).elim⟩
  · rw [holder_lock_ne different]

theorem keeps_write (other : j ≠ i) (free : s.Free i k) : s.Keeps (s.write i k row) j := by
  intro l
  refine ⟨?_, fun _ => ⟨by rw [rows_write], congrFun (view_write_other other free) l⟩⟩
  rcases eq_or_ne l k with rfl | different
  · rw [holder_write_self]
    exact ⟨fun mine => (other (Option.some.inj mine).symm).elim,
      fun held => (other (free.ne held)).elim⟩
  · rw [holder_write_ne different]

omit [DecidableEq κ] in
theorem keeps_commit (other : j ≠ i) : s.Keeps (s.commit i) j := by
  intro l
  refine ⟨holder_commit.trans (and_iff_left other), fun held => ⟨?_, ?_⟩⟩
  · rw [rows_commit]
    apply view_of_not_held
    rw [held]
    exact fun same => other (Option.some.inj same)
  · rw [view_commit other, if_pos held]

omit [DecidableEq κ] in
theorem keeps_rollback (other : j ≠ i) : s.Keeps (s.rollback i) j :=
  fun l => ⟨holder_rollback.trans (and_iff_left other),
    fun _ => ⟨rfl, congrFun (view_rollback other) l⟩⟩

end RowStore

end Finstack.Foundation
