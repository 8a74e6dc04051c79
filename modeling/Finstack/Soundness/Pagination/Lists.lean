import Finstack.Model.Pagination.Lists
import Finstack.Soundness.Pagination.Cursor

/-! # Lists are complete

A cursor that is read back is the position of its row, so page after page a list returns each row
that it had at first, once and in order, while newer rows are added in front.
-/

namespace Finstack

open Foundation

variable {T : Type} {engine : Engine} {limit : Nat}

/-! ## Cursors of the endpoints -/

theorem beforeOf_none (engine : Engine) : beforeOf engine none = .ok none := rfl

theorem beforeOf_encodeCursor (engine : Engine) (cursor : Cursor) :
    beforeOf engine (some (encodeCursor cursor)) = .ok (some cursor) := by
  rw [beforeOf, if_neg (encodeCursor_ne_empty engine cursor), decodeCursor_encodeCursor]
  rfl

theorem listEndpoint_eq (list : Nat → PageOptions → Page T Cursor) :
    (fun n => listEndpoint engine (list n) limit) = encoded encodeCursor (beforeOf engine)
      fun n before => .ok (list n ⟨limit, before⟩) := rfl

/-- An endpoint's pages are those behind its cursors. -/
theorem returns_listEndpoint {list : Nat → PageOptions → Page T Cursor} {rows : List T} :
    Returns (fun n => listEndpoint engine (list n) limit) rows ↔
      Returns (fun n before => (Except.ok (list n ⟨limit, before⟩) : Except Err _)) rows := by
  rw [listEndpoint_eq]
  exact returns_encoded (beforeOf_none engine) (beforeOf_encodeCursor engine)

/-! ## Rows in milliseconds -/

variable [Paged T]

theorem position_cursor (row : T) : (Paged.cursor row).position = Paged.position row := rfl

theorem positions_nodup {rows : List T} (distinct : (rows.map Paged.id).Nodup) :
    (rows.map Paged.position).Nodup := by
  refine List.Nodup.of_map (fun position : Position => (ofLex position).2) ?_
  rw [List.map_map]
  exact distinct

/-- Each row that the list has at first is returned once, the newest first, however many newer ones are
added on the way. -/
def ReturnsAll (table : Nat → List T) (ask : Nat → Option String → Except Err (Page T String)) : Prop :=
  Grows Paged.position ask table →
    ∃ rows, rows.Perm (table 0) ∧ Descending Paged.position rows ∧ Returns ask rows

theorem returnsAll_keysetPage (engine : Engine) (positive : 1 ≤ limit) {table : Nat → List T}
    (distinct : ((table 0).map Paged.id).Nodup) :
    ReturnsAll table fun n => listEndpoint engine (keysetPage (table n)) limit := by
  intro grows
  have descending := newestFirst_descending (positions_nodup distinct)
  have decoded : Grows Paged.position
      (pages Err Paged.position Cursor.position Paged.cursor limit table) table :=
    (grows_encoded (beforeOf_none engine) (beforeOf_encodeCursor engine)).mp grows
  refine ⟨newestFirst Paged.position (table 0), newestFirst_perm _ _, descending, ?_⟩
  refine returns_listEndpoint.mpr (follow_pages positive (fun row => le_of_eq (position_cursor row))
    descending (newestFirst_perm _ _).symm decoded ?_)
  -- the next row is below the last one, which is where the cursor stands
  intro k _ newer last first older split _
  rw [split] at descending
  have below := (List.pairwise_append.mp descending).2.1
  exact (List.pairwise_cons.mp below).1 first List.mem_cons_self

/-! ## Ledger entries -/

namespace LedgerService

variable (tables : LedgerTables) (accountId : Uuid)

/-- No entry is lost in the join. -/
theorem ids_accountEntries : (tables.accountEntries accountId).map AccountEntry.id =
    (tables.entriesOf accountId).map EntryRow.id := by
  have all : ∀ entry ∈ tables.entriesOf accountId,
      (tables.transactions.find? entry.ledgerTransactionId).isSome := fun entry member =>
    tables.fk_ledger_entries_ledger_transaction entry (List.mem_of_mem_filter member)
  unfold LedgerTables.accountEntries
  generalize tables.entriesOf accountId = entries at all
  induction entries with
  | nil => rfl
  | cons entry entries ih =>
    obtain ⟨here, others⟩ := List.forall_mem_cons.mp all
    obtain ⟨txn, found⟩ := Option.isSome_iff_exists.mp here
    rw [List.filterMap_cons_some (by rw [found]; rfl), List.map_cons, ih others]
    rfl

theorem ids_nodup : ((tables.accountEntries accountId).map AccountEntry.id).Nodup := by
  rw [ids_accountEntries]
  exact (List.filter_sublist.map EntryRow.id).nodup tables.entries.nodup

end LedgerService

/-! ## The three lists -/

theorem lists_complete (engine : Engine) {limit : Nat} (positive : 1 ≤ limit) :
    (∀ (T : Type) [Paged T] (query : Nat → List T), ((query 0).map Paged.id).Nodup →
      ReturnsAll query fun n => listEndpoint engine (keysetPage (query n)) limit) ∧
    (∀ (tables : Nat → LedgerService.LedgerTables) (accountId : Uuid),
      ((tables 0).accountEntries accountId).map Paged.id =
        ((tables 0).entriesOf accountId).map LedgerService.EntryRow.id ∧
      ReturnsAll (fun n => (tables n).accountEntries accountId) fun n =>
        listEndpoint engine (LedgerService.listAccountEntries (tables n) accountId) limit) ∧
    (∀ (transactions : Nat → Table TransactionsService.TransactionRow) (userId : Uuid),
      ReturnsAll (fun n => TransactionsService.ofUser (transactions n) userId) fun n =>
        listEndpoint engine (TransactionsService.listForUser (transactions n) userId) limit) ∧
    ∀ (transactions : Nat → Table TransactionsService.TransactionRow) (organizationId : Uuid),
      ReturnsAll (fun n => TransactionsService.ofOrganization (transactions n) organizationId) fun n =>
        listEndpoint engine (TransactionsService.listForOrganization (transactions n) organizationId)
          limit := by
  refine ⟨fun T _ query distinct => returnsAll_keysetPage engine positive distinct,
    fun tables accountId => ⟨LedgerService.ids_accountEntries (tables 0) accountId, ?_⟩,
    fun transactions userId => ?_, fun transactions organizationId => ?_⟩
  · exact returnsAll_keysetPage engine positive (LedgerService.ids_nodup (tables 0) accountId)
  · exact returnsAll_keysetPage engine positive
      ((List.filter_sublist.map TransactionsService.TransactionRow.id).nodup (transactions 0).nodup)
  · exact returnsAll_keysetPage engine positive
      ((List.filter_sublist.map TransactionsService.TransactionRow.id).nodup (transactions 0).nodup)

/-- Two transactions of one millisecond on two pages, and a third that comes after the first page. -/
theorem lists_complete_tie :
    let early : TransactionsService.TransactionRow := ⟨1, some 7, none, none, ⟨1700000000000, by decide⟩⟩
    let tied := { early with id := 2 }
    let late : TransactionsService.TransactionRow := ⟨0, some 7, none, none, ⟨1700000000001, by decide⟩⟩
    ∃ rows, rows.Perm [early, tied] ∧ Descending Paged.position rows ∧
      Returns (fun n => listEndpoint ⟨fun _ => none, fun _ => [], fun _ => ""⟩
        (keysetPage (if n = 0 then [early, tied] else [late, early, tied])) 1) rows := by
  intro early tied late
  refine (lists_complete _ (Nat.le_refl 1)).1 TransactionsService.TransactionRow
    (fun n => if n = 0 then [early, tied] else [late, early, tied]) (by decide) ?_
  refine (grows_encoded (beforeOf_none _) (beforeOf_encodeCursor _)).mpr (grows_of_newer fun n => ?_)
  cases n with
  | zero => exact ⟨[late], .refl _, by decide⟩
  | succ n => exact ⟨[], .refl _, by simp⟩

end Finstack
