import Mathlib.Data.List.Basic
import Mathlib.Data.Nat.Init
import Mathlib.Order.Lattice

/-! # Keyset pagination

Rows in descending order of their keys, a page at a time. A page starts behind a cursor, and carries
the cursor of its last row if there is more. The bound a cursor stands for may be lower than the key
of its row: then what lies between the two is lost at a page's border, and nothing else is.
-/

namespace Finstack.Foundation

variable {R C κ ε : Type} [LinearOrder κ]

/-! ## One page -/

def newestFirst (key : R → κ) (rows : List R) : List R := rows.mergeSort fun a b => key b ≤ key a

structure Page (R C : Type) where
  items : List R
  next : Option C

/-- The rows behind the cursor. -/
def behind (key : R → κ) (bound : C → κ) (rows : List R) : Option C → List R
  | none => rows
  | some cursor => rows.filter fun row => key row < bound cursor

/-- One row more than fits tells whether there is another page. -/
def keysetPage (key : R → κ) (bound : C → κ) (cursorOf : R → C) (limit : Nat) (rows : List R)
    (before : Option C) : Page R C :=
  let found := (newestFirst key (behind key bound rows before)).take (limit + 1)
  let items := found.take limit
  { items
    next := if found.length > limit then items.getLast?.map cursorOf else none }

/-- Keys descend strictly. -/
abbrev Descending (key : R → κ) (rows : List R) : Prop := rows.Pairwise fun a b => key b < key a

variable {key : R → κ} {bound : C → κ} {cursorOf : R → C} {limit : Nat} {rows sorted : List R}

theorem newestFirst_perm (key : R → κ) (rows : List R) : (newestFirst key rows).Perm rows :=
  List.mergeSort_perm _ _

theorem newestFirst_descending (distinct : (rows.map key).Nodup) :
    Descending key (newestFirst key rows) := by
  have ordered : (newestFirst key rows).Pairwise fun a b => key b ≤ key a := by
    have transitive (a b c : R) : decide (key b ≤ key a) → decide (key c ≤ key b) → decide (key c ≤ key a) := by
      simpa using fun first second => le_trans second first
    have total (a b : R) : decide (key b ≤ key a) || decide (key a ≤ key b) := by
      simpa using le_total (key b) (key a)
    have sorted := List.pairwise_mergeSort transitive total rows
    unfold newestFirst
    simpa only [decide_eq_true_eq] using sorted
  have apart : (newestFirst key rows).Pairwise fun a b => key a ≠ key b :=
    List.pairwise_map.mp (((newestFirst_perm key rows).map key).nodup_iff.mpr distinct)
  exact (ordered.and apart).imp fun both => lt_of_le_of_ne both.1 both.2.symm

theorem newestFirst_eq (perm : rows.Perm sorted) (descending : Descending key sorted) :
    newestFirst key rows = sorted := by
  have distinct : (rows.map key).Nodup := by
    refine (perm.map key).nodup_iff.mpr (List.pairwise_map.mpr ?_)
    exact descending.imp fun lt => ne_of_gt lt
  refine ((newestFirst_perm key rows).trans perm).eq_of_pairwise (fun a b _ _ lt gt => ?_)
    (newestFirst_descending distinct) descending
  exact absurd (lt_trans lt gt) (lt_irrefl _)

/-- A page is the beginning of what is behind the cursor. -/
theorem keysetPage_eq {before : Option C} (perm : (behind key bound rows before).Perm sorted)
    (descending : Descending key sorted) :
    keysetPage key bound cursorOf limit rows before = {
      items := sorted.take limit
      next := if limit < sorted.length then (sorted.take limit).getLast?.map cursorOf else none } := by
  have more : (sorted.take (limit + 1)).length > limit ↔ limit < sorted.length := by
    rw [List.length_take]
    omega
  simp only [keysetPage, newestFirst_eq perm descending, List.take_take, more,
    Nat.min_eq_left (Nat.le_succ limit)]

theorem mem_of_mem_behind {before : Option C} {row : R} (member : row ∈ behind key bound rows before) :
    row ∈ rows := by
  cases before with
  | none => exact member
  | some cursor => exact List.mem_of_mem_filter member

theorem mem_behind_of_mem_items {before : Option C} {row : R}
    (member : row ∈ (keysetPage key bound cursorOf limit rows before).items) :
    row ∈ behind key bound rows before :=
  (newestFirst_perm key _).mem_iff.mp (List.mem_of_mem_take (List.mem_of_mem_take member))

/-! ## Page after page -/

/-- How far the pages have been read. -/
structure Progress (R C : Type) where
  returned : List R
  /-- The cursor of the next request; none after the last page. -/
  request : Option (Option C)

/-- The first `n` requests: each passes on the cursor that came with the page before. -/
def follow (ask : Nat → Option C → Except ε (Page R C)) : Nat → Except ε (Progress R C)
  | 0 => .ok ⟨[], some none⟩
  | n + 1 =>
    match follow ask n with
    | .error e => .error e
    | .ok ⟨returned, none⟩ => .ok ⟨returned, none⟩
    | .ok ⟨returned, some before⟩ =>
      match ask n before with
      | .error e => .error e
      | .ok page => .ok ⟨returned ++ page.items, page.next.map some⟩

variable {ask : Nat → Option C → Except ε (Page R C)} {n : Nat} {returned : List R}

theorem follow_ended (ended : follow ask n = .ok ⟨returned, none⟩) (k : Nat) :
    follow ask (n + k) = .ok ⟨returned, none⟩ := by
  induction k with
  | zero => exact ended
  | succ k ih => rw [← Nat.add_assoc, follow, ih]

/-- The pages come to an end, and these are their rows. -/
def Returns (ask : Nat → Option C → Except ε (Page R C)) (rows : List R) : Prop :=
  ∃ n, follow ask n = .ok ⟨rows, none⟩

section Encoded

variable {D : Type} {encode : C → D} {read : Option D → Except ε (Option C)}

/-- Cursors travel as texts. -/
def encoded (encode : C → D) (read : Option D → Except ε (Option C))
    (ask : Nat → Option C → Except ε (Page R C)) : Nat → Option D → Except ε (Page R D) :=
  fun n text => do
    let before ← read text
    let page ← ask n before
    pure ⟨page.items, page.next.map encode⟩

variable (start : read none = .ok none) (inverse : ∀ cursor, read (some (encode cursor)) = .ok (some cursor))

include start inverse

theorem follow_encoded (n : Nat) : follow (encoded encode read ask) n =
    (follow ask n).map fun progress => ⟨progress.returned, progress.request.map (·.map encode)⟩ := by
  induction n with
  | zero => rfl
  | succ n ih =>
    rw [follow, ih, follow]
    cases follow ask n with
    | error e => rfl
    | ok progress =>
      obtain ⟨returned, request⟩ := progress
      cases request with
      | none => rfl
      | some before =>
        have decoded : read (before.map encode) = .ok before := by
          cases before with
          | none => exact start
          | some cursor => exact inverse cursor
        simp only [Except.map, Option.map_some, encoded, decoded, bind, Except.bind, pure, Except.pure]
        cases ask n before with
        | error e => rfl
        | ok page => simp [Option.map_map, Function.comp_def]

theorem returns_encoded : Returns (encoded encode read ask) returned ↔ Returns ask returned := by
  refine exists_congr fun n => ?_
  rw [follow_encoded start inverse]
  cases follow ask n with
  | error e => simp [Except.map]
  | ok progress =>
    obtain ⟨returned', request⟩ := progress
    cases request <;> simp [Except.map]

end Encoded

/-! ## The pages of a table -/

/-- `table n` is what the table holds at the `n`th request. -/
def pages (ε : Type) (key : R → κ) (bound : C → κ) (cursorOf : R → C) (limit : Nat)
    (table : Nat → List R) : Nat → Option C → Except ε (Page R C) :=
  fun n before => .ok (keysetPage key bound cursorOf limit (table n) before)

/-- What is added between two requests is newer than all that has been returned. -/
def Grows (key : R → κ) (ask : Nat → Option C → Except ε (Page R C)) (table : Nat → List R) : Prop :=
  ∀ n returned before, follow ask (n + 1) = .ok ⟨returned, some before⟩ → ∃ new,
    (table (n + 1)).Perm (new ++ table n) ∧ ∀ row ∈ new, ∀ old ∈ returned, key old < key row

theorem grows_encoded {D : Type} {encode : C → D} {read : Option D → Except ε (Option C)}
    {table : Nat → List R} (start : read none = .ok none)
    (inverse : ∀ cursor, read (some (encode cursor)) = .ok (some cursor)) :
    Grows key (encoded encode read ask) table ↔ Grows key ask table := by
  constructor
  · intro grows n shown before reached
    refine grows n shown (before.map encode) ?_
    rw [follow_encoded start inverse, reached]
    rfl
  · intro grows n shown before reached
    rw [follow_encoded start inverse] at reached
    cases progress : follow ask (n + 1) with
    | error e =>
      rw [progress] at reached
      cases reached
    | ok found =>
      obtain ⟨shown', request⟩ := found
      rw [progress] at reached
      cases request with
      | none => cases reached
      | some before' =>
        cases reached
        exact grows n shown' before' progress

/-- Behind the first `k` rows nothing lies between a row's key and the bound of its cursor. -/
def Border (key : R → κ) (mark : R → κ) (sorted : List R) (k : Nat) : Prop :=
  ∀ newer last first older, sorted = newer ++ last :: first :: older → newer.length + 1 = k →
    key first < mark last

/-- `n` full pages have been read, and there is more. -/
structure Reached (ε : Type) (key : R → κ) (bound : C → κ) (cursorOf : R → C) (limit : Nat)
    (table : Nat → List R) (sorted : List R) (n : Nat) (before : Option C) : Prop where
  read : follow (pages ε key bound cursorOf limit table) n =
    .ok ⟨sorted.take (n * limit), some before⟩
  rest : (behind key bound (table n) before).Perm (sorted.drop (n * limit))

variable {table : Nat → List R} {before : Option C} {cursor : C} {newer older : List R} {last first : R}

/-- What is behind a row is behind everything newer. -/
theorem behind_filter (member : last ∈ behind key bound rows before) (le : bound cursor ≤ key last) :
    behind key bound rows (some cursor) =
      (behind key bound rows before).filter fun row => key row < bound cursor := by
  cases before with
  | none => rfl
  | some earlier =>
    have lower : key last < bound earlier := by simpa [behind] using (List.mem_filter.mp member).2
    simp only [behind, List.filter_filter]
    refine List.filter_congr fun row _ => ?_
    have imp : key row < bound cursor → key row < bound earlier :=
      fun lt => lt_trans (lt_of_lt_of_le lt le) lower
    simpa using imp

/-- Nothing is between the last row and the bound, so the rest starts with the next one. -/
theorem filter_descending {m : κ} (descending : Descending key (newer ++ last :: first :: older))
    (le : m ≤ key last) (lt : key first < m) :
    (newer ++ last :: first :: older).filter (fun row => key row < m) = first :: older := by
  obtain ⟨-, rest, above⟩ := List.pairwise_append.mp descending
  obtain ⟨-, rest⟩ := List.pairwise_cons.mp rest
  obtain ⟨below, -⟩ := List.pairwise_cons.mp rest
  have out : newer.filter (fun row => key row < m) = [] := by
    refine List.filter_eq_nil_iff.mpr fun row member => ?_
    have higher := above row member last List.mem_cons_self
    simpa using le_trans le (le_of_lt higher)
  have kept : (first :: older).filter (fun row => key row < m) = first :: older := by
    refine List.filter_eq_self.mpr fun row member => ?_
    rcases List.mem_cons.mp member with rfl | old
    · simpa using lt
    · simpa using lt_trans (below row old) lt
  rw [List.filter_append, out, List.nil_append, List.filter_cons_of_neg (by simpa using le), kept]

/-- The last row of a full page and the one after it. -/
theorem page_split (positive : 1 ≤ limit) (more : limit < rows.length) :
    ∃ newer last first older, rows = newer ++ last :: first :: older ∧ newer.length + 1 = limit := by
  have tail : rows.drop (limit - 1) = rows[limit - 1] :: rows[limit - 1 + 1] :: rows.drop (limit + 1) := by
    rw [List.drop_eq_getElem_cons (by omega), List.drop_eq_getElem_cons (by omega)]
    congr 3
    omega
  refine ⟨rows.take (limit - 1), rows[limit - 1], rows[limit - 1 + 1], rows.drop (limit + 1), ?_, ?_⟩
  · rw [← tail, List.take_append_drop]
  · rw [List.length_take]
    omega

namespace Reached

variable (reached : Reached ε key bound cursorOf limit table sorted n before)

include reached

/-- The last page. -/
theorem ends (descending : Descending key sorted) (least : sorted.length ≤ (n + 1) * limit) :
    follow (pages ε key bound cursorOf limit table) (n + 1) = .ok ⟨sorted, none⟩ := by
  have short : (sorted.drop (n * limit)).length ≤ limit := by
    rw [Nat.succ_mul] at least
    rw [List.length_drop]
    omega
  rw [follow, reached.read]
  simp only [pages, keysetPage_eq reached.rest (descending.drop), if_neg (Nat.not_lt.mpr short),
    List.take_of_length_le short, List.take_append_drop, Option.map_none]

/-- A full page, with the cursor of its last row. -/
theorem continues (descending : Descending key sorted)
    (split : sorted.drop (n * limit) = newer ++ last :: first :: older)
    (full : newer.length + 1 = limit) :
    follow (pages ε key bound cursorOf limit table) (n + 1) =
      .ok ⟨sorted.take ((n + 1) * limit), some (some (cursorOf last))⟩ := by
  have page : (newer ++ last :: first :: older).take limit = newer ++ [last] := by
    rw [← full, List.take_append, List.take_of_length_le (by omega), Nat.add_sub_cancel_left]
    rfl
  have more : limit < (newer ++ last :: first :: older).length := by
    simp only [List.length_append, List.length_cons]
    omega
  have returned : sorted.take ((n + 1) * limit) = sorted.take (n * limit) ++ (newer ++ [last]) := by
    rw [Nat.succ_mul, List.take_add, split, page]
  rw [follow, reached.read, returned]
  simp only [pages, keysetPage_eq reached.rest (descending.drop), split, page, if_pos more,
    List.getLast?_concat, Option.map_some]

/-- Nothing is lost at a border without a gap. -/
theorem next (descending : Descending key sorted)
    (split : sorted.drop (n * limit) = newer ++ last :: first :: older)
    (full : newer.length + 1 = limit) (le : bound (cursorOf last) ≤ key last)
    (lt : key first < bound (cursorOf last))
    (grows : Grows key (pages ε key bound cursorOf limit table) table) :
    Reached ε key bound cursorOf limit table sorted (n + 1) (some (cursorOf last)) := by
  have read := reached.continues descending split full
  refine ⟨read, ?_⟩
  obtain ⟨new, perm, newest⟩ := grows n _ _ read
  have there : last ∈ sorted.drop (n * limit) := by
    rw [split]
    exact List.mem_append_right _ List.mem_cons_self
  have shown : last ∈ sorted.take ((n + 1) * limit) := by
    have : sorted.take ((n + 1) * limit) =
        sorted.take (n * limit) ++ (sorted.drop (n * limit)).take limit := by
      rw [Nat.succ_mul, List.take_add]
    rw [this, split, ← full, List.take_append]
    refine List.mem_append_right _ (List.mem_append_right _ ?_)
    rw [Nat.add_sub_cancel_left]
    exact List.mem_cons_self
  have none_new : new.filter (fun row => key row < bound (cursorOf last)) = [] := by
    refine List.filter_eq_nil_iff.mpr fun row member => ?_
    simpa using le_trans le (le_of_lt (newest row member last shown))
  have here := behind_filter ((reached.rest.mem_iff).mpr there) le
  have dropped : sorted.drop ((n + 1) * limit) = first :: older := by
    rw [Nat.succ_mul, ← List.drop_drop, split, ← full, List.drop_append,
      List.drop_of_length_le (by omega), Nat.add_sub_cancel_left]
    rfl
  rw [dropped, ← filter_descending (split ▸ descending.drop) le lt, ← split]
  calc
    (behind key bound (table (n + 1)) (some (cursorOf last))).Perm
        ((new ++ table n).filter fun row => key row < bound (cursorOf last)) := perm.filter _
    _ = (behind key bound (table n) before).filter fun row => key row < bound (cursorOf last) := by
      rw [List.filter_append, none_new, List.nil_append, ← here]
      rfl
    List.Perm _ _ := reached.rest.filter _

end Reached

theorem mem_table_of_mem_returned (kept : ∀ n, table n ⊆ table (n + 1)) {progress : Progress R C}
    (read : follow (pages ε key bound cursorOf limit table) n = .ok progress) {m : Nat} (late : n ≤ m + 1) :
    ∀ row ∈ progress.returned, row ∈ table m := by
  induction n generalizing progress with
  | zero =>
    cases read
    exact fun row member => absurd member (List.not_mem_nil)
  | succ n ih =>
    rw [follow] at read
    cases found : follow (pages ε key bound cursorOf limit table) n with
    | error e =>
      rw [found] at read
      cases read
    | ok earlier =>
      have old := ih found (by omega)
      obtain ⟨returned, request⟩ := earlier
      rw [found] at read
      cases request with
      | none =>
        cases read
        exact old
      | some before =>
        cases read
        intro row member
        rcases List.mem_append.mp member with shown | new
        · exact old row shown
        · have there : row ∈ table n := mem_of_mem_behind (mem_behind_of_mem_items new)
          have later : ∀ m, n ≤ m → row ∈ table m := Nat.le_induction there fun k _ mem => kept k mem
          exact later m (by omega)

/-- Rows that are newer than the whole table are newer than what has been returned of it. -/
theorem grows_of_newer (newer : ∀ n, ∃ new, (table (n + 1)).Perm (new ++ table n) ∧
    ∀ row ∈ new, ∀ old ∈ table n, key old < key row) :
    Grows key (pages ε key bound cursorOf limit table) table := by
  intro n returned before read
  have kept (n : Nat) : table n ⊆ table (n + 1) := by
    obtain ⟨new, perm, -⟩ := newer n
    exact fun row member => perm.mem_iff.mpr (List.mem_append_right _ member)
  obtain ⟨new, perm, lower⟩ := newer n
  refine ⟨new, perm, fun row member old present => lower row member old ?_⟩
  exact mem_table_of_mem_returned kept read (Nat.le_refl _) old present

/-! ## Whole lists -/

section Whole

variable (positive : 1 ≤ limit) (le : ∀ row, bound (cursorOf row) ≤ key row)
  (descending : Descending key sorted) (first_table : (table 0).Perm sorted)
  (grows : Grows key (pages ε key bound cursorOf limit table) table)

include positive le descending first_table grows

/-- Up to a gap the pages are as full as they can be. -/
theorem exists_reached (inside : n = 0 ∨ n * limit < sorted.length)
    (borders : ∀ k, 1 ≤ k → k ≤ n → Border key (bound ∘ cursorOf) sorted (k * limit)) :
    ∃ before, Reached ε key bound cursorOf limit table sorted n before := by
  induction n with
  | zero => exact ⟨none, by simp [follow], by simpa [behind] using first_table⟩
  | succ n ih =>
    have longer : (n + 1) * limit < sorted.length := inside.resolve_left (Nat.succ_ne_zero n)
    rw [Nat.succ_mul] at longer
    obtain ⟨before, reached⟩ := ih (.inr (by omega)) fun k one up => borders k one (by omega)
    obtain ⟨newer, last, first, older, split, full⟩ :=
      page_split positive (show limit < (sorted.drop (n * limit)).length by
        rw [List.length_drop]
        omega)
    have lt : key first < bound (cursorOf last) := by
      refine borders (n + 1) (by omega) (Nat.le_refl _) (sorted.take (n * limit) ++ newer) last first older ?_ ?_
      · rw [List.append_assoc, ← split, List.take_append_drop]
      · rw [List.length_append, List.length_take, Nat.succ_mul]
        omega
    exact ⟨_, reached.next descending split full (le last) lt grows⟩

/-- Without gaps at the borders all rows are returned. -/
theorem follow_pages
    (borders : ∀ k, 1 ≤ k → Border key (bound ∘ cursorOf) sorted (k * limit)) :
    Returns (pages ε key bound cursorOf limit table) sorted := by
  have division := Nat.div_add_mod' (sorted.length - 1) limit
  have short := Nat.mod_lt (sorted.length - 1) positive
  have whole : sorted.length = 0 → (sorted.length - 1) / limit = 0 := fun empty => by simp [empty]
  generalize (sorted.length - 1) / limit = n at division whole
  have inside : n = 0 ∨ n * limit < sorted.length := by
    rcases Nat.eq_zero_or_pos sorted.length with empty | some_row
    · exact .inl (whole empty)
    · right
      omega
  obtain ⟨before, reached⟩ := exists_reached positive le descending first_table grows inside
    fun k one _ => borders k one
  refine ⟨n + 1, reached.ends descending ?_⟩
  rw [Nat.succ_mul]
  omega

end Whole

section Lost

variable (le : ∀ row, bound (cursorOf row) ≤ key row)

include le

/-- From a cursor on, everything that is returned is behind it. -/
theorem follow_behind (read : follow (pages ε key bound cursorOf limit fun _ => rows) n =
      .ok ⟨returned, some (some cursor)⟩) (k : Nat) :
    ∃ more request, follow (pages ε key bound cursorOf limit fun _ => rows) (n + k) =
        .ok ⟨returned ++ more, request⟩ ∧ (∀ row ∈ more, key row < bound cursor) ∧
      ∀ before ∈ request, ∃ later, before = some later ∧ bound later ≤ bound cursor := by
  induction k with
  | zero =>
    refine ⟨[], some (some cursor), by simpa using read, by simp, ?_⟩
    rintro before member
    exact ⟨cursor, (Option.mem_some.mp member).symm, le_rfl⟩
  | succ k ih =>
    obtain ⟨more, request, read', lower, requests⟩ := ih
    rw [← Nat.add_assoc, follow, read']
    cases request with
    | none => exact ⟨more, none, rfl, lower, by simp⟩
    | some before =>
      obtain ⟨later, rfl, at_most⟩ := requests before rfl
      have items : ∀ row ∈ (keysetPage key bound cursorOf limit rows (some later)).items,
          key row < bound later := fun row member => by
        simpa [behind] using (List.mem_filter.mp (mem_behind_of_mem_items member)).2
      refine ⟨more ++ (keysetPage key bound cursorOf limit rows (some later)).items,
        (keysetPage key bound cursorOf limit rows (some later)).next.map some, ?_, ?_, ?_⟩
      · simp only [pages, List.append_assoc]
      · intro row member
        rcases List.mem_append.mp member with old | new
        · exact lower row old
        · exact lt_of_lt_of_le (items row new) at_most
      · rintro before member
        obtain ⟨following, next, rfl⟩ := Option.map_eq_some_iff.mp member
        refine ⟨following, rfl, ?_⟩
        simp only [keysetPage, Option.ite_none_right_eq_some, Option.map_eq_some_iff] at next
        obtain ⟨-, last, final, rfl⟩ := next
        have lt := items last (List.mem_of_getLast? final)
        exact le_trans (le last) (le_trans (le_of_lt lt) at_most)

/-- What a gap hides is never returned. -/
theorem border_of_follow (positive : 1 ≤ limit) (descending : Descending key sorted)
    (perm : rows.Perm sorted)
    (read : follow (pages ε key bound cursorOf limit fun _ => rows) n = .ok ⟨returned, none⟩)
    (complete : ∀ row ∈ sorted, row ∈ returned) {k : Nat} (one : 1 ≤ k) :
    Border key (bound ∘ cursorOf) sorted (k * limit) := by
  induction k using Nat.strongRecOn with
  | _ k earlier =>
    intro newer last first older split length
    by_contra gap
    obtain ⟨m, rfl⟩ : ∃ m, k = m + 1 := ⟨k - 1, by omega⟩
    have size := congrArg List.length split
    rw [List.length_append, List.length_cons, List.length_cons] at size
    rw [Nat.succ_mul] at length
    have still : Grows key (pages ε key bound cursorOf limit fun _ => rows) fun _ => rows :=
      fun _ _ _ _ => ⟨[], .refl _, by simp⟩
    obtain ⟨before, reached⟩ : ∃ before, Reached ε key bound cursorOf limit (fun _ => rows) sorted m before :=
      exists_reached positive le descending perm still (.inr (by omega)) fun j one up =>
        earlier j (by omega) one
    have rest : sorted.drop (m * limit) = newer.drop (m * limit) ++ last :: first :: older := by
      rw [split, List.drop_append_of_le_length (by omega)]
    have page := reached.continues descending rest (by
      rw [List.length_drop]
      omega)
    obtain ⟨more, request, read', lower, -⟩ := follow_behind le page n
    have ended := follow_ended read (m + 1)
    rw [Nat.add_comm, read'] at ended
    obtain ⟨rfl, -⟩ := Progress.mk.inj (Except.ok.inj ended)
    have present := complete first (split ▸ by simp)
    rcases List.mem_append.mp present with shown | later
    · -- it comes after the rows that were shown, and no row comes twice
      have taken : sorted.take ((m + 1) * limit) = newer ++ [last] := by
        rw [Nat.succ_mul, ← length, split, List.take_append, List.take_of_length_le (by omega),
          Nat.add_sub_cancel_left]
        rfl
      rw [taken] at shown
      have apart := descending
      rw [split, List.append_cons] at apart
      exact lt_irrefl _ ((List.pairwise_append.mp apart).2.2 first shown first List.mem_cons_self)
    · exact gap (lower first later)

end Lost

/-- At no border between two pages is there a gap. -/
def NoGap (key : R → κ) (mark : R → κ) (limit : Nat) (sorted : List R) : Prop :=
  ∀ newer last first older, sorted = newer ++ last :: first :: older → limit ∣ newer.length + 1 →
    key first < mark last

/-- All rows are returned if and only if none is in a gap. -/
theorem returns_all_iff (positive : 1 ≤ limit) (le : ∀ row, bound (cursorOf row) ≤ key row)
    (distinct : (rows.map key).Nodup) :
    (∃ returned, Returns (pages ε key bound cursorOf limit fun _ => rows) returned ∧ returned.Perm rows) ↔
      NoGap key (bound ∘ cursorOf) limit (newestFirst key rows) := by
  have perm := newestFirst_perm key rows
  have descending := newestFirst_descending distinct
  constructor
  · rintro ⟨returned, ⟨n, read⟩, all⟩ newer last first older split ⟨k, border⟩
    have complete : ∀ row ∈ newestFirst key rows, row ∈ returned :=
      fun row member => all.mem_iff.mpr (perm.mem_iff.mp member)
    have one : 1 ≤ k := Nat.one_le_iff_ne_zero.mpr fun zero => by simp [zero] at border
    exact border_of_follow le positive descending perm.symm read complete one newer last first older split
      (by rw [border, Nat.mul_comm])
  · intro noGap
    refine ⟨newestFirst key rows, follow_pages positive le descending perm.symm ?_ ?_, perm⟩
    · exact fun _ _ _ _ => ⟨[], .refl _, by simp⟩
    · exact fun k _ newer last first older split border =>
        noGap newer last first older split ⟨k, by rw [border, Nat.mul_comm]⟩

end Finstack.Foundation
