import Finstack.Foundation.RowStore

/-! # What becomes of rows

Two invariants over every version of a row: each version satisfies a predicate, and each version
that a transaction has made may follow the committed one.
-/

namespace Finstack.Foundation.RowStore

variable {κ ρ ι : Type} [DecidableEq κ] [DecidableEq ι] {s : RowStore κ ρ ι} {i : ι} {k : κ}
  {row : Option ρ} {P Q : κ → ρ → Prop} {R : κ → Option ρ → Option ρ → Prop}

/-! ## Every version -/

/-- Every version of a row, committed or not, satisfies `P`. -/
def Every (s : RowStore κ ρ ι) (P : κ → ρ → Prop) : Prop := ∀ k r, s.Shows k r → P k r

omit [DecidableEq κ] in
theorem Every.start : (start fun _ => none : RowStore κ ρ ι).Every P := by
  rintro k r (committed | ⟨j, held, -⟩)
  · cases committed
  · cases held

omit [DecidableEq κ] in
theorem Every.mono (every : s.Every P) (weaker : ∀ k r, P k r → Q k r) : s.Every Q :=
  fun k r shows_ => weaker k r (every k r shows_)

theorem Every.lock (every : s.Every P) (free : s.Free i k) : (s.lock i k).Every P :=
  fun l r shows_ => every l r (shows_lock free shows_)

theorem Every.write (every : s.Every P) (free : s.Free i k) (new : ∀ r ∈ row, P k r) :
    (s.write i k row).Every P := by
  intro l r shows_
  rcases shows_write free shows_ with before | ⟨rfl, written⟩
  · exact every l r before
  · exact new r written

omit [DecidableEq κ] in
theorem Every.commit (every : s.Every P) : (s.commit i).Every P :=
  fun l r shows_ => every l r (shows_commit shows_)

omit [DecidableEq κ] in
theorem Every.rollback (every : s.Every P) : (s.rollback i).Every P :=
  fun l r shows_ => every l r (shows_rollback shows_)

/-! ## From the committed version -/

/-- What any transaction has made of a row may follow what is committed. -/
def Follows (s : RowStore κ ρ ι) (R : κ → Option ρ → Option ρ → Prop) : Prop :=
  ∀ i k, R k (s.rows k) (s.view i k)

omit [DecidableEq κ] in
theorem Follows.start (same : ∀ k row, R k row row) (rows : κ → Option ρ) :
    (start rows : RowStore κ ρ ι).Follows R := by
  intro i k
  rw [view_of_not_held (by simp [RowStore.start])]
  exact same k _

theorem Follows.lock (follows : s.Follows R) (free : s.Free i k) : (s.lock i k).Follows R := by
  intro j l
  rw [rows_lock]
  rcases eq_or_ne j i with rfl | other
  · rw [view_lock]
    exact follows j l
  · rw [view_lock_other other free]
    exact follows j l

theorem Follows.write (follows : s.Follows R) (free : s.Free i k) (may : R k (s.rows k) row) :
    (s.write i k row).Follows R := by
  intro j l
  rw [rows_write]
  rcases eq_or_ne j i with rfl | other
  · rcases eq_or_ne l k with rfl | apart
    · rw [view_write_self]
      exact may
    · rw [view_write_ne apart]
      exact follows j l
  · rw [view_write_other other free]
    exact follows j l

omit [DecidableEq κ] in
/-- A committed row follows itself, and the rows the others hold were not committed to. -/
theorem Follows.commit (follows : s.Follows R) (same : ∀ k row, R k row row) :
    (s.commit i).Follows R := by
  intro j l
  by_cases held : (s.commit i).holder l = some j
  · obtain ⟨held, other⟩ := holder_commit.mp held
    rw [view_commit other, if_pos held, rows_commit, view_of_not_held]
    · exact follows j l
    · rw [held]
      exact fun mine => other (Option.some.inj mine)
  · rw [view_of_not_held held]
    exact same l _

omit [DecidableEq κ] in
theorem Follows.rollback (follows : s.Follows R) (same : ∀ k row, R k row row) :
    (s.rollback i).Follows R := by
  intro j l
  rcases eq_or_ne j i with rfl | other
  · rw [view_of_not_held fun held => (holder_rollback.mp held).2 rfl]
    exact same l _
  · rw [view_rollback other]
    exact follows j l

/-! ## Rows that are not there -/

/-- Nobody has committed such a row or holds it. -/
def Absent (s : RowStore κ ρ ι) (k : κ) : Prop := s.rows k = none ∧ s.holder k = none

variable {l : κ}

theorem Absent.lock (absent : s.Absent l) (other : l ≠ k) : (s.lock i k).Absent l :=
  ⟨by rw [rows_lock]; exact absent.1, (holder_lock_ne other).trans absent.2⟩

omit [DecidableEq ι] in
theorem Absent.write (absent : s.Absent l) (other : l ≠ k) : (s.write i k row).Absent l :=
  ⟨absent.1, (holder_write_ne other).trans absent.2⟩

omit [DecidableEq κ] in
theorem Absent.commit (absent : s.Absent k) : (s.commit i).Absent k := by
  obtain ⟨gone, free⟩ := absent
  refine ⟨?_, by simp [RowStore.commit, release, free]⟩
  rw [rows_commit, view_of_not_held (by simp [free]), gone]

omit [DecidableEq κ] in
theorem Absent.rollback (absent : s.Absent k) : (s.rollback i).Absent k :=
  ⟨absent.1, by simp [RowStore.rollback, release, absent.2]⟩

omit [DecidableEq κ] in
/-- A row that someone sees is there. -/
theorem Absent.view (absent : s.Absent k) : s.view i k = none := by
  rw [view_of_not_held (by simp [absent.2]), absent.1]

end Finstack.Foundation.RowStore
