import Finstack.Soundness.Pagination.Lists

/-! # Users between two pages

Users are compared by the microseconds of their rows, and a cursor has only the milliseconds. So
what is left of the last user's millisecond is skipped, which loses a user where it follows at the
border of a page, and nowhere else.
-/

namespace Finstack.UsersService

open Foundation

variable {engine : Engine} {casing : LowerCase} {users : Table UserRow} {filter : SearchFilter}
  {limit : Nat}

theorem bound_cursor_le (user : UserRow) : bound user.cursor ≤ user.position := by
  have millisecond := Int.ediv_mul_le user.createdAt.micros (by decide : (1000 : Int) ≠ 0)
  rcases lt_or_eq_of_le millisecond with below | equal
  · exact Prod.Lex.toLex_le_toLex.mpr (.inl below)
  · exact Prod.Lex.toLex_le_toLex.mpr (.inr ⟨equal, le_rfl⟩)

theorem positions_nodup : ((matching casing users filter).map UserRow.position).Nodup := by
  refine List.Nodup.of_map (fun position : Position => (ofLex position).2) ?_
  rw [List.map_map]
  exact (List.filter_sublist.map UserRow.id).nodup users.nodup

theorem returns_search : (∃ returned, Returns (fun _ => listEndpoint engine (search casing users filter) limit)
      returned ∧ returned.Perm (matching casing users filter)) ↔
    ∃ returned, Returns (pages Err UserRow.position bound UserRow.cursor limit fun _ =>
      matching casing users filter) returned ∧ returned.Perm (matching casing users filter) :=
  exists_congr fun _ => and_congr_left fun _ => returns_listEndpoint

/-- The next user is older than what the last one's cursor says. -/
def Apart (last next : UserRow) : Prop :=
  next.createdAt.micros < last.createdAt.micros / 1000 * 1000 ∨
    next.createdAt.micros = last.createdAt.micros / 1000 * 1000 ∧ next.id < last.id

theorem apart_iff {last next : UserRow} : Apart last next ↔ next.position < bound last.cursor := by
  rw [UserRow.position, bound, Prod.Lex.toLex_lt_toLex]
  rfl

theorem search_complete_iff (engine : Engine) (casing : LowerCase) (users : Table UserRow)
    (filter : SearchFilter) {limit : Nat} (positive : 1 ≤ limit) :
    (∃ returned, Returns (fun _ => listEndpoint engine (search casing users filter) limit) returned ∧
      returned.Perm (matching casing users filter)) ↔
    ∀ newer last next older, newestFirst UserRow.position (matching casing users filter) =
      newer ++ last :: next :: older → limit ∣ newer.length + 1 → Apart last next := by
  rw [returns_search, returns_all_iff positive bound_cursor_le positions_nodup]
  simp only [apart_iff]
  rfl

/-- A second apart. -/
theorem search_complete_seconds :
    let early : UserRow := ⟨1, "ada@example.com", .active, ⟨1700000000000500, by decide⟩⟩
    let late : UserRow := ⟨2, "bob@example.com", .active, ⟨1700000001000200, by decide⟩⟩
    ∃ returned, Returns (fun _ => listEndpoint ⟨fun _ => none, fun _ => [], fun _ => ""⟩
      (search ⟨id, id⟩ ⟨[early, late], by decide⟩ ⟨none, none⟩) 1) returned ∧
      returned.Perm [early, late] := by
  intro early late
  refine (search_complete_iff _ ⟨id, id⟩ ⟨[early, late], by decide⟩ ⟨none, none⟩ (Nat.le_refl 1)).mpr ?_
  have order : newestFirst UserRow.position [early, late] = [late, early] :=
    newestFirst_eq (.swap _ _ _) (by decide)
  intro newer last next older split _
  have pair := order.symm.trans split
  cases newer with
  | nil =>
    cases pair
    exact .inl (by decide)
  | cons first newer =>
    have length := congrArg List.length pair
    simp only [List.cons_append, List.length_cons, List.length_append, List.length_nil] at length
    omega

/-- Within one millisecond, the second user is on no page. -/
theorem search_loses_user :
    let early : UserRow := ⟨1, "ada@example.com", .active, ⟨1700000000000200, by decide⟩⟩
    let late : UserRow := ⟨2, "bob@example.com", .active, ⟨1700000000000500, by decide⟩⟩
    ¬ ∃ returned, Returns (fun _ => listEndpoint ⟨fun _ => none, fun _ => [], fun _ => ""⟩
      (search ⟨id, id⟩ ⟨[early, late], by decide⟩ ⟨none, none⟩) 1) returned ∧
      returned.Perm [early, late] := by
  intro early late complete
  have order : newestFirst UserRow.position [early, late] = [late, early] :=
    newestFirst_eq (.swap _ _ _) (by decide)
  have noGap := (returns_all_iff (Nat.le_refl 1) bound_cursor_le positions_nodup).mp
    (returns_search.mp complete)
  have gap := noGap [] late early [] order (Nat.one_dvd _)
  exact absurd (apart_iff.mpr gap) (by simp [Apart, early, late])

end Finstack.UsersService
