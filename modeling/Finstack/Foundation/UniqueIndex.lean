import Finstack.Foundation.RowStore

/-! # Partial unique indexes

A unique index over the rows that satisfy a predicate. A write of such a row fails if there is
another one, and waits while another transaction is about to add or to remove one.
-/

namespace Finstack.Foundation.RowStore

variable {κ ρ ι : Type} [DecidableEq κ] [DecidableEq ι] {s : RowStore κ ρ ι} {p : ρ → Bool}
  {i j : ι} {k l : κ} {row : Option ρ} {ids : List κ}

/-- Another transaction has written this row. -/
def Pending (s : RowStore κ ρ ι) (i : ι) (l : κ) : Prop :=
  (∃ j ∈ s.holder l, j ≠ i) ∧ (s.draft l).isSome

instance (s : RowStore κ ρ ι) (i : ι) (l : κ) : Decidable (s.Pending i l) :=
  inferInstanceAs (Decidable (_ ∧ _))

/-- There is such a row already. -/
def Taken (s : RowStore κ ρ ι) (p : ρ → Bool) (ids : List κ) (i : ι) (k : κ) : Prop :=
  ∃ l ∈ ids, l ≠ k ∧ ¬ s.Pending i l ∧ (s.view i l).any p

/-- Another transaction decides whether there is such a row. -/
def Waits (s : RowStore κ ρ ι) (p : ρ → Bool) (ids : List κ) (i : ι) (k : κ) : Prop :=
  ∃ l ∈ ids, l ≠ k ∧ s.Pending i l ∧
    ((s.rows l).any p ∨ ∃ j ∈ s.holder l, (s.view j l).any p)

instance (s : RowStore κ ρ ι) (ids : List κ) (i : ι) (k : κ) : Decidable (s.Taken p ids i k) :=
  inferInstanceAs (Decidable (∃ l ∈ ids, _))

instance (s : RowStore κ ρ ι) (ids : List κ) (i : ι) (k : κ) : Decidable (s.Waits p ids i k) :=
  inferInstanceAs (Decidable (∃ l ∈ ids, _))

/-- No other row, committed or not, is in the way of such a row at `k`. -/
def Clear (s : RowStore κ ρ ι) (p : ρ → Bool) (i : ι) (k : κ) : Prop :=
  ∀ l, l ≠ k → ¬ (s.view i l).any p ∧ ∀ j, s.holder l = some j → ¬ (s.view j l).any p

/-- What the index enforces. -/
structure OneOf (s : RowStore κ ρ ι) (p : ρ → Bool) : Prop where
  rows : ∀ k l, (s.rows k).any p → (s.rows l).any p → k = l
  drafts : ∀ i k, s.holder k = some i → (s.view i k).any p → s.Clear p i k

/-- The rows there were ever are among `ids`. -/
def Within (s : RowStore κ ρ ι) (ids : List κ) : Prop :=
  ∀ l, l ∉ ids → s.rows l = none ∧ s.holder l = none

omit [DecidableEq κ] in
theorem Within.of_view (within : s.Within ids) (exists_ : (s.view i k).isSome) : k ∈ ids := by
  by_contra outside
  obtain ⟨gone, free⟩ := within k outside
  rw [view_of_not_held (by simp [free]), gone] at exists_
  cases exists_

omit [DecidableEq κ] in
theorem Within.of_shows {r : ρ} (within : s.Within ids) (shows_ : s.Shows k r) : k ∈ ids := by
  by_contra outside
  obtain ⟨gone, free⟩ := within k outside
  rcases shows_ with committed | ⟨j, held, -⟩
  · rw [gone] at committed
    cases committed
  · rw [free] at held
    cases held

omit [DecidableEq κ] in
/-- A row that nobody has written shows as it is committed. -/
theorem view_of_no_draft (none : s.draft k = none) : s.view i k = s.rows k := by
  simp [view, none]

omit [DecidableEq κ] in
/-- What the index checks is that nothing is in the way. -/
theorem clear_of_not_taken (within : s.Within ids) (taken : ¬ s.Taken p ids i k)
    (waits : ¬ s.Waits p ids i k) : s.Clear p i k := by
  intro l other
  by_cases known : l ∈ ids
  · by_cases pending : s.Pending i l
    · have decided : ¬ ((s.rows l).any p ∨ ∃ j ∈ s.holder l, (s.view j l).any p) :=
        fun one => waits ⟨l, known, other, pending, one⟩
      obtain ⟨j, held, different⟩ := pending.1
      have held : s.holder l = some j := held
      have mine : s.holder l ≠ some i := by
        rw [held]
        exact fun same => different (Option.some.inj same)
      refine ⟨fun one => ?_, fun j held one => decided (.inr ⟨j, held, one⟩)⟩
      rw [view_of_not_held mine] at one
      exact decided (.inl one)
    · have free : ¬ (s.view i l).any p := fun one => taken ⟨l, known, other, pending, one⟩
      refine ⟨free, fun j held one => ?_⟩
      rcases eq_or_ne j i with rfl | different
      · exact free one
      · have untouched : s.draft l = none := by
          by_contra written
          exact pending ⟨⟨j, held, different⟩, Option.isSome_iff_ne_none.mpr written⟩
        rw [view_of_no_draft untouched] at one
        exact free (by rwa [view_of_no_draft untouched])
  · obtain ⟨gone, free⟩ := within l known
    refine ⟨?_, by simp [free]⟩
    rw [view_of_not_held (by simp [free]), gone]
    simp

omit [DecidableEq κ] in
/-- A row of the index keeps its place when it is written again. -/
theorem OneOf.clear_of_row (one : s.OneOf p) (free : s.holder k = none)
    (is : (s.rows k).any p = true) : s.Clear p i k := by
  have seen : ∀ j, s.view j k = s.rows k := fun j => view_of_not_held (by simp [free])
  have drafts : ∀ l, l ≠ k → ∀ j, s.holder l = some j → ¬ (s.view j l).any p := by
    intro l other j held draft
    have clear := (one.drafts j l held draft k other.symm).1
    rw [seen] at clear
    exact clear is
  intro l other
  refine ⟨fun also => ?_, drafts l other⟩
  by_cases mine : s.holder l = some i
  · exact drafts l other i mine also
  · rw [view_of_not_held mine] at also
    exact other (one.rows l k also is)

omit [DecidableEq κ] in
theorem OneOf.start : (start fun _ => none : RowStore κ ρ ι).OneOf p where
  rows := by simp [RowStore.start]
  drafts := by simp [RowStore.start]

theorem OneOf.lock (one : s.OneOf p) (free : s.Free i k) : (s.lock i k).OneOf p := by
  have same : ∀ j, (s.lock i k).view j = s.view j := by
    intro j
    rcases eq_or_ne j i with rfl | other
    · exact view_lock
    · exact view_lock_other other free
  -- the row that is locked was seen as it is by everyone
  have seen : ∀ j, j ≠ i → s.view j k = s.rows k := fun j other =>
    view_of_not_held fun held => other (free.ne held)
  constructor
  · simpa using one.rows
  · intro j l held is l' other
    rw [same] at is
    rw [same]
    rcases eq_or_ne l k with rfl | different
    · obtain rfl : i = j := by simpa using held
      by_cases mine : s.holder l = some i
      · have clear := one.drafts i l mine is l' other
        rw [holder_lock_ne other]
        exact ⟨clear.1, fun j held => by rw [same]; exact clear.2 j held⟩
      · rw [view_of_not_held mine] at is
        refine ⟨fun also => ?_, fun j held also => ?_⟩
        · by_cases theirs : s.holder l' = some i
          · have clear := (one.drafts i l' theirs also l other.symm).1
            rw [view_of_not_held mine] at clear
            exact clear is
          · rw [view_of_not_held theirs] at also
            exact other (one.rows l' l also is)
        · rw [holder_lock_ne other] at held
          rw [same] at also
          have clear := (one.drafts j l' held also l other.symm).1
          have unheld : s.holder l ≠ some j := by
            intro held'
            rcases free with none | mine'
            · simp [none] at held'
            · exact mine mine'
          rw [view_of_not_held unheld] at clear
          exact clear is
    · rw [holder_lock_ne different] at held
      have clear := one.drafts j l held is l' other
      refine ⟨clear.1, fun j' held' => ?_⟩
      rw [same]
      rcases eq_or_ne l' k with rfl | different'
      · obtain rfl : i = j' := by simpa using held'
        by_cases mine : s.holder l' = some i
        · exact clear.2 i mine
        · rw [view_of_not_held mine]
          rcases eq_or_ne j i with rfl | theirs
          · rw [← view_of_not_held mine]
            exact clear.1
          · rw [← seen j theirs]
            exact clear.1
      · rw [holder_lock_ne different'] at held'
        exact clear.2 j' held'

/-- A row outside the index is written. -/
theorem OneOf.write_other (one : s.OneOf p) (free : s.Free i k) (other : ¬ row.any p) :
    (s.write i k row).OneOf p := by
  constructor
  · simpa using one.rows
  · intro j l held is l' different
    have moved : l ≠ k := by
      rintro rfl
      obtain rfl : i = j := by simpa using held
      rw [view_write_self] at is
      exact other is
    rw [holder_write_ne moved] at held
    rcases eq_or_ne j i with rfl | theirs
    · rw [view_write_ne moved] at is
      have clear := one.drafts j l held is l' different
      rcases eq_or_ne l' k with rfl | apart
      · refine ⟨by simpa using other, fun j' held' => ?_⟩
        obtain rfl : j = j' := by simpa using held'
        simpa using other
      · rw [view_write_ne apart, holder_write_ne apart]
        refine ⟨clear.1, fun j' held' => ?_⟩
        rcases eq_or_ne j' j with rfl | theirs'
        · rw [view_write_ne apart]
          exact clear.2 j' held'
        · rw [view_write_other theirs' free]
          exact clear.2 j' held'
    · rw [view_write_other theirs free] at is ⊢
      have clear := one.drafts j l held is l' different
      refine ⟨clear.1, fun j' held' => ?_⟩
      rcases eq_or_ne l' k with rfl | apart
      · obtain rfl : i = j' := by simpa using held'
        simpa using other
      · rw [holder_write_ne apart] at held'
        rcases eq_or_ne j' i with rfl | theirs'
        · rw [view_write_ne apart]
          exact clear.2 j' held'
        · rw [view_write_other theirs' free]
          exact clear.2 j' held'

/-- A row of the index is written where nothing is in the way. -/
theorem OneOf.write (one : s.OneOf p) (free : s.Free i k) (clear : s.Clear p i k) :
    (s.write i k row).OneOf p := by
  constructor
  · simpa using one.rows
  · intro j l held is l' different
    rcases eq_or_ne l k with rfl | moved
    · obtain rfl : i = j := by simpa using held
      have clear := clear l' different
      rw [view_write_ne different, holder_write_ne different]
      refine ⟨clear.1, fun j' held' => ?_⟩
      rcases eq_or_ne j' i with rfl | theirs'
      · rw [view_write_ne different]
        exact clear.2 j' held'
      · rw [view_write_other theirs' free]
        exact clear.2 j' held'
    · rw [holder_write_ne moved] at held
      have blocked := (clear l moved).2 j held
      rcases eq_or_ne j i with rfl | theirs
      · rw [view_write_ne moved] at is
        exact (blocked is).elim
      · rw [view_write_other theirs free] at is
        exact (blocked is).elim

/-- A row is changed and stays where it is with respect to the index. -/
theorem OneOf.rewrite {r r' : ρ} (one : s.OneOf p) (free : s.Free i k) (seen : s.view i k = some r)
    (same : p r' = p r) : (s.write i k (some r')).OneOf p := by
  by_cases is : p r = true
  · apply one.write free
    by_cases mine : s.holder k = some i
    · exact one.drafts i k mine (by simpa [seen] using is)
    · rw [view_of_not_held mine] at seen
      exact one.clear_of_row (free.resolve_right mine) (by simpa [seen] using is)
  · apply one.write_other free
    simpa [same] using is

omit [DecidableEq κ] in
theorem OneOf.commit (one : s.OneOf p) : (s.commit i).OneOf p := by
  constructor
  · intro k l first second
    rw [rows_commit] at first second
    by_contra different
    by_cases mine : s.holder k = some i
    · exact (one.drafts i k mine first l (Ne.symm different)).1 second
    · by_cases mine' : s.holder l = some i
      · exact (one.drafts i l mine' second k different).1 first
      · rw [view_of_not_held mine] at first
        rw [view_of_not_held mine'] at second
        exact different (one.rows k l first second)
  · intro j l held is l' different
    obtain ⟨held, theirs⟩ := holder_commit.mp held
    rw [view_commit theirs, if_pos held] at is
    have clear := one.drafts j l held is l' different
    refine ⟨?_, fun j' held' => ?_⟩
    · rw [view_commit theirs]
      split_ifs with mine
      · exact clear.1
      · by_cases committed : s.holder l' = some i
        · exact clear.2 i committed
        · rw [view_of_not_held committed, ← view_of_not_held mine]
          exact clear.1
    · obtain ⟨held', theirs'⟩ := holder_commit.mp held'
      rw [view_commit theirs', if_pos held']
      exact clear.2 j' held'

omit [DecidableEq κ] in
theorem OneOf.rollback (one : s.OneOf p) : (s.rollback i).OneOf p := by
  constructor
  · simpa using one.rows
  · intro j l held is l' different
    obtain ⟨held, theirs⟩ := holder_rollback.mp held
    rw [view_rollback theirs] at is ⊢
    have clear := one.drafts j l held is l' different
    refine ⟨clear.1, fun j' held' => ?_⟩
    obtain ⟨held', theirs'⟩ := holder_rollback.mp held'
    rw [view_rollback theirs']
    exact clear.2 j' held'

/-! ## Which rows there are -/

theorem Within.lock (within : s.Within ids) (known : k ∈ ids) : (s.lock i k).Within ids := by
  intro l outside
  have other : l ≠ k := by
    rintro rfl
    exact outside known
  rw [rows_lock, holder_lock_ne other]
  exact within l outside

omit [DecidableEq ι] in
theorem Within.write (within : s.Within ids) (known : k ∈ ids) : (s.write i k row).Within ids := by
  intro l outside
  have other : l ≠ k := by
    rintro rfl
    exact outside known
  rw [rows_write, holder_write_ne other]
  exact within l outside

omit [DecidableEq κ] [DecidableEq ι] in
theorem Within.cons (within : s.Within ids) : s.Within (k :: ids) :=
  fun l outside => within l fun known => outside (List.mem_cons_of_mem k known)

omit [DecidableEq κ] in
theorem Within.commit (within : s.Within ids) : (s.commit i).Within ids := by
  intro l outside
  obtain ⟨gone, free⟩ := within l outside
  refine ⟨?_, by simp [RowStore.commit, release, free]⟩
  rw [rows_commit, view_of_not_held (by simp [free]), gone]

omit [DecidableEq κ] in
theorem Within.rollback (within : s.Within ids) : (s.rollback i).Within ids := by
  intro l outside
  obtain ⟨gone, free⟩ := within l outside
  exact ⟨gone, by simp [RowStore.rollback, release, free]⟩

end Finstack.Foundation.RowStore
