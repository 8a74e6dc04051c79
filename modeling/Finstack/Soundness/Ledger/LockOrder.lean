import Finstack.Foundation.Progress
import Finstack.Soundness.Ledger.PostWithin

/-! # Postings lock in order

Accounts in id order first, then the rows and keys of the new transaction: whatever is posted,
postings alone never deadlock.
-/

namespace Finstack

open Foundation LedgerService

namespace RowLock

/-- Accounts in id order, before everything else. -/
def rank : RowLock → Nat
  | .account id => id
  | _ => 2 ^ 128

theorem rank_exclusive (l : RowLock) : l.exclusive.rank = l.rank := by
  cases l <;> rfl

theorem rank_of_conflicts (a b : RowLock) (conflict : Locking.conflicts a b = true) :
    a.rank = b.rank := by
  have same : a.exclusive = b.exclusive := by
    have both : (a.exclusive == b.exclusive && !(a.shared && b.shared)) = true := conflict
    simp only [Bool.and_eq_true, beq_iff_eq] at both
    exact both.1
  rw [← rank_exclusive a, ← rank_exclusive b, same]

end RowLock

variable {α : Type} {Q : Except Err α → List RowLock → Prop} {held : List RowLock}

theorem ordered_query {read : Db → α} (next : ∀ a, Q (.ok a) held) :
    Txn.Ordered RowLock.rank Q (Txn.query read : DbTxn α) held :=
  ⟨fun _ member => (List.not_mem_nil member).elim, fun _ => next _⟩

theorem ordered_queryCommitted {read : Db → α} (next : ∀ a, Q (.ok a) held) :
    Txn.Ordered RowLock.rank Q (Txn.queryCommitted read : DbTxn α) held :=
  ⟨rfl, fun _ => next _⟩

theorem ordered_statement {locks : List RowLock} {run : Db → Except Err (α × (Db → Db))}
    (above : ∀ l ∈ locks, l ∈ held ∨ ∀ m ∈ held, m.rank < l.rank)
    (next : ∀ result, Q result (locks ++ held)) :
    Txn.Ordered RowLock.rank Q (Txn.statement locks run : DbTxn α) held :=
  ⟨above, fun _ => next _⟩

theorem ordered_inTransaction {body : DbTxn α} (ends : ∀ result, Q result [])
    (ordered : Txn.Ordered RowLock.rank (fun _ _ => True) body held) :
    Txn.Ordered RowLock.rank Q (inTransaction body) held :=
  Txn.ordered_transaction ends (Prog.Ordered.mono (fun _ _ _ =>
    ordered_statement (fun l member => by cases member) fun _ => trivial) ordered)

namespace LedgerService

/-- Rows in increasing order of their ids. -/
theorem lockRows_ordered {ids : List Uuid} {Q : Except Err (List (Option LedgerAccount)) →
      List RowLock → Prop} (sorted : ids.Pairwise (· < ·))
    (below : ∀ m ∈ held, ∀ id ∈ ids, m.rank < (RowLock.account id).rank)
    (next : ∀ rows held', (∀ m ∈ held, m ∈ held') →
      (∀ m ∈ held', m ∈ held ∨ ∃ id ∈ ids, m = .account id) → (∀ id ∈ ids, RowLock.account id ∈ held') →
      Q (.ok rows) held') :
    Txn.Ordered RowLock.rank Q (lockRows ids) held := by
  induction ids generalizing held Q with
  | nil => exact next [] held (fun _ member => member) (fun _ member => .inl member) (by simp)
  | cons id rest ih =>
    obtain ⟨least, sorted⟩ := List.pairwise_cons.mp sorted
    refine Txn.ordered_bind.mpr ⟨fun l member => .inr fun m mine => ?_, fun view => ?_⟩
    · obtain rfl := List.mem_singleton.mp member
      exact below m mine id List.mem_cons_self
    refine Txn.ordered_bind.mpr (ih sorted (fun m member other later => ?_)
      fun rows held' kept origin locked => next _ held'
        (fun m mine => kept m (List.mem_cons_of_mem _ mine)) (fun m member => ?_)
        fun other member => ?_)
    · rcases List.mem_cons.mp member with rfl | mine
      · exact least other later
      · exact below m mine other (List.mem_cons_of_mem _ later)
    · rcases origin m member with mine | ⟨other, later, rfl⟩
      · rcases List.mem_cons.mp mine with rfl | mine
        · exact .inr ⟨id, List.mem_cons_self, rfl⟩
        · exact .inl mine
      · exact .inr ⟨other, List.mem_cons_of_mem _ later, rfl⟩
    · rcases List.mem_cons.mp member with rfl | later
      · exact kept _ List.mem_cons_self
      · exact locked other later

theorem sorted_lockOrder (ids : List Uuid) : (lockOrder ids).Pairwise (· < ·) := by
  have sorted : (lockOrder ids).Pairwise (· ≤ ·) := List.pairwise_insertionSort _ _
  have distinct : (lockOrder ids).Pairwise (· ≠ ·) := nodup_lockOrder ids
  exact (sorted.and distinct).imp fun both => lt_of_le_of_ne both.1 both.2

theorem postNew_ordered (uuid : Uuid) (input : PostingInput) (amount : Int) :
    Txn.Ordered RowLock.rank (fun _ _ => True) (postNew uuid input amount) [] := by
  have reversal : Txn.Ordered RowLock.rank (fun _ held => held = [])
      (input.reversalOfId.forM assertNotReversed) [] := by
    cases input.reversalOfId with
    | none => rfl
    | some original =>
      refine Txn.ordered_bind.mpr (ordered_query fun found => ?_)
      dsimp only
      split_ifs <;> rfl
  refine Txn.ordered_bind.mpr (Prog.Ordered.mono (fun result held nothing => ?_) reversal)
  subst nothing
  cases result with
  | error e => trivial
  | ok _ =>
    refine Txn.ordered_bind.mpr (Txn.ordered_bind.mpr (lockRows_ordered (sorted_lockOrder _)
      (by simp) fun rows held _ origin locked => ?_))
    have accounts : ∀ m ∈ held, m.rank < 2 ^ 128 := by
      intro m member
      rcases origin m member with absurd | ⟨account, _, rfl⟩
      · cases absurd
      · exact account.isLt
    have fresh : ∀ l ∈ transactionLocks (newTransaction uuid input amount),
        l ∈ held ∨ ∀ m ∈ held, m.rank < l.rank := by
      intro l member
      right
      intro m mine
      have top : l.rank = 2 ^ 128 := by
        unfold transactionLocks at member
        cases reverses : (newTransaction uuid input amount).reversalOfId <;>
          simp only [reverses, List.mem_cons, List.not_mem_nil, or_false] at member
        · rcases member with rfl | rfl <;> rfl
        · rcases member with rfl | rfl | rfl | rfl <;> rfl
      rw [top]
      exact accounts m mine
    have known : ∀ l ∈ entryLocks (newTransaction uuid input amount)
          (newEntries (newTransaction uuid input amount) input.entries),
        l ∈ transactionLocks (newTransaction uuid input amount) ++ held := by
      intro l member
      rcases List.mem_cons.mp member with rfl | entry
      · exact List.mem_append_left _ (mem_transactionLocks _)
      · obtain ⟨row, present, rfl⟩ := List.mem_map.mp entry
        obtain ⟨posted, given, rfl⟩ := List.mem_map.mp present
        refine List.mem_append_right _ (locked _ (mem_lockOrder.mpr ?_))
        exact List.mem_map.mpr ⟨posted, given, rfl⟩
    dsimp only
    split_ifs with short
    · trivial
    refine Txn.ordered_bind.mpr ?_
    cases assertCurrency (rows.filterMap id) input.currency with
    | error e => trivial
    | ok _ =>
      refine Txn.ordered_bind.mpr ?_
      cases assertSufficientFunds (rows.filterMap id) input with
      | error e => trivial
      | ok _ =>
        refine Txn.ordered_bind.mpr (ordered_statement fresh fun result => ?_)
        cases result with
        | error e => trivial
        | ok _ =>
          refine Txn.ordered_bind.mpr (ordered_statement (fun l member => .inl (known l member))
            fun result => ?_)
          cases result <;> trivial

theorem replay_ordered (manager : Manager) (input : PostingInput) :
    Txn.Ordered RowLock.rank (fun _ held => held = []) (replay manager input) [] := by
  cases manager with
  | transaction =>
    refine Txn.ordered_bind.mpr (ordered_query fun found => Txn.ordered_bind.mpr ?_)
    cases found with
    | none => rfl
    | some _ => exact Txn.ordered_bind.mpr (ordered_query fun _ => rfl)
  | dataSource =>
    refine Txn.ordered_bind.mpr (ordered_queryCommitted fun found => Txn.ordered_bind.mpr ?_)
    cases found with
    | none => rfl
    | some _ => exact Txn.ordered_bind.mpr (ordered_queryCommitted fun _ => rfl)

theorem postWithin_ordered (id : Uuid) (input : PostingInput) :
    Txn.Ordered RowLock.rank (fun _ _ => True) (postWithin id input) [] := by
  refine Txn.ordered_bind.mpr ?_
  cases validatePosting input with
  | error e => trivial
  | ok amount =>
    refine Txn.ordered_bind.mpr (ordered_query fun existing => ?_)
    dsimp only
    split_ifs
    · exact Prog.Ordered.mono (fun _ _ _ => trivial) (replay_ordered .transaction input)
    · exact postNew_ordered id input amount

/-- A posting of its own locks in order and ends without locks. -/
theorem post_ordered (id : Uuid) (input : PostingInput) :
    Txn.Ordered RowLock.rank (fun _ held => held = []) (post id input) [] := by
  refine Txn.ordered_bind.mpr ?_
  cases validatePosting input with
  | error e => rfl
  | ok amount =>
    refine Txn.ordered_tryCatch (ordered_inTransaction (fun result => ?_)
      (Txn.ordered_bind.mpr (postWithin_ordered id input)))
    cases result with
    | ok posted => rfl
    | error e =>
      dsimp only
      unfold recoverPost
      split_ifs
      · exact replay_ordered .dataSource input
      · rfl
      · rfl

end LedgerService

end Finstack
