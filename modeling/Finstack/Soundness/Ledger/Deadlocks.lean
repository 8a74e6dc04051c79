import Finstack.Foundation.LockQueue
import Finstack.Model.Ledger.Sequences
import Finstack.Soundness.Ledger.LockOrder

/-! # Deadlocks on accounts

A posting locks its accounts in id order, but a transaction of several postings locks anew with each
of them. So postings alone queue up, and two conversions in opposite directions can deadlock.
-/

namespace Finstack

open Foundation LockQueue

/-- The account that a lock is about. -/
def RowLock.account? : RowLock → Option Uuid
  | .account id => some id
  | _ => none

namespace LedgerService

/-! ## What a posting locks -/

variable {taken rest : List Uuid} {Q : Except Err PostedTransaction → List Uuid → List Uuid → Prop}

theorem lockRows_takes {ids order : List Uuid}
    {Q : Except Err (List (Option LedgerAccount)) → List Uuid → List Uuid → Prop}
    (split : order = ids ++ rest) (next : ∀ rows, Q (.ok rows) (taken ++ ids) rest) :
    Takes RowLock.account? Q (lockRows ids) taken order := by
  subst split
  induction ids generalizing taken Q with
  | nil =>
    have whole := next []
    rw [List.append_nil] at whole
    exact whole
  | cons id ids ih =>
    refine takes_bind (takes_select rfl fun account => takes_bind (ih fun rows => ?_))
    have whole := next (account :: rows)
    rw [List.append_cons] at whole
    exact whole

theorem transactionLocks_accounts (transaction : LedgerTransaction) :
    (transactionLocks transaction).filterMap RowLock.account? = [] := by
  unfold transactionLocks
  cases transaction.reversalOfId <;> rfl

theorem postNew_takes (uuid : Uuid) (input : PostingInput) (amount : Int) :
    Takes RowLock.account? (fun _ _ _ => True) (postNew uuid input amount) []
      (lockOrder (input.entries.map (·.accountId))) := by
  have reversal : ∀ {Q : Except Err PUnit → List Uuid → List Uuid → Prop},
      (∀ result, Q result [] (lockOrder (input.entries.map (·.accountId)))) →
      Takes RowLock.account? Q (input.reversalOfId.forM assertNotReversed) []
        (lockOrder (input.entries.map (·.accountId))) := by
    intro Q next
    cases input.reversalOfId with
    | none => exact next (.ok ⟨⟩)
    | some original =>
      refine takes_bind (takes_query fun found => ?_)
      dsimp only
      split_ifs <;> exact next _
  refine takes_bind (reversal fun result => ?_)
  cases result with
  | error e => trivial
  | ok _ =>
    refine takes_bind (takes_bind ?_)
    refine lockRows_takes (List.append_nil _).symm fun rows => ?_
    dsimp only
    split_ifs with short
    · trivial
    refine takes_bind ?_
    cases assertCurrency (rows.filterMap id) input.currency with
    | error e => trivial
    | ok _ =>
      refine takes_bind ?_
      cases assertSufficientFunds (rows.filterMap id) input with
      | error e => trivial
      | ok _ =>
        refine takes_bind (takes_statement (fun a member => ?_) fun result => ?_)
        · simp [transactionLocks_accounts] at member
        cases result with
        | error e => trivial
        | ok _ =>
          refine takes_bind (takes_statement (fun a member => ?_) fun result => ?_)
          · rw [List.nil_append, mem_lockOrder]
            simpa [entryLocks, newEntries, RowLock.account?, List.mem_filterMap] using member
          · cases result <;> trivial

/-- A posting locks its accounts one by one in id order, or none of them. -/
theorem postWithin_takes (id : Uuid) (input : PostingInput) :
    Takes RowLock.account? (fun _ _ _ => True) (postWithin id input) []
      (lockOrder (input.entries.map (·.accountId))) := by
  refine takes_bind ?_
  cases validatePosting input with
  | error e => trivial
  | ok amount =>
    refine takes_bind (takes_query fun existing => ?_)
    dsimp only
    split_ifs
    · refine takes_bind (takes_query fun found => takes_bind ?_)
      cases found with
      | none => trivial
      | some transaction => exact takes_bind (takes_query fun _ => trivial)
    · exact postNew_takes id input amount

end LedgerService

/-! ## Transactions of several postings -/

variable {ι : Type} [DecidableEq ι] (accounts : PlatformAccounts)

/-- Whatever the transactions do one after another, they never wait for each other in a circle. -/
def NeverDeadlocks (txns : ι → LedgerTxn accounts) : Prop :=
  ∀ s, State.Reaches (.start fun i => lockSequence (txns i).issued) s → ¬ s.Deadlocked

theorem neverDeadlocks_iff (txns : ι → LedgerTxn accounts) :
    NeverDeadlocks accounts txns ↔ ¬ Crosses fun i => lockSequence (txns i).issued := by
  rw [← State.deadlock_iff_crosses]
  unfold NeverDeadlocks
  push Not
  rfl

/-- Transactions that lock in one order queue up. -/
theorem neverDeadlocks_of_sorted {txns : ι → LedgerTxn accounts}
    (sorted : ∀ i, (lockSequence (txns i).issued).Pairwise (· ≤ ·)) :
    NeverDeadlocks accounts txns :=
  (neverDeadlocks_iff accounts txns).mpr (not_crosses_of_sorted sorted)

/-- So do transactions of one posting each: holds and their releases, and movements without a fee. -/
theorem neverDeadlocks_of_single {txns : ι → LedgerTxn accounts}
    (single : ∀ i, ((txns i).operation.postings accounts).length ≤ 1) :
    NeverDeadlocks accounts txns := by
  apply neverDeadlocks_of_sorted
  intro i
  have few : (txns i).issued.length ≤ 1 := (txns i).isSublist.length_le.trans (single i)
  match issued : (txns i).issued with
  | [] => exact .nil
  | [posting] =>
    have sorted := LedgerService.sorted_lockOrder (posting.entries.map (·.accountId))
    simpa [lockSequence] using sorted.imp fun before => le_of_lt before
  | _ :: _ :: _ => simp [issued] at few

/-! ## Opposite conversions -/

/-- The accounts of a platform in naira and dollars. -/
def nairaAndDollars : PlatformAccounts where
  externalClearing currency := if currency = "NGN" then 1 else 2
  fxPosition currency := if currency = "NGN" then 3 else 4
  feeRevenue currency := if currency = "NGN" then 5 else 6
  fxRevenue currency := if currency = "NGN" then 7 else 8

def nairaToDollars : FxQuote :=
  ⟨1, none, "NGN", "USD", 1550000, 990, 1000, 60000, none, none, none, none⟩

def dollarsToNaira : FxQuote :=
  ⟨2, none, "USD", "NGN", 1000, 1534500, 1550000, 60000, none, none, none, none⟩

/-- One user converts naira and another dollars. -/
def oppositeConversions (i : Fin 2) : LedgerTxn nairaAndDollars :=
  let operation : LedgerOperation :=
    if i.val = 0 then .convert nairaToDollars ⟨1, "convert-1", "Conversion", 11, 12, none⟩
    else .convert dollarsToNaira ⟨2, "convert-2", "Conversion", 14, 13, none⟩
  ⟨operation, operation.postings nairaAndDollars, .refl _⟩

/-- Each has posted its source leg and waits for the position that the other has locked. -/
theorem oppositeConversions_deadlock : ¬ NeverDeadlocks nairaAndDollars oppositeConversions := by
  have ran : ((Schedule.run State.step Schedule.Any [.lock 0, .lock 0, .lock 1, .lock 1]
      (.start fun i => lockSequence (oppositeConversions i).issued)).map fun s =>
        decide (s.Waits 0 1 ∧ s.Waits 1 0)) = some true := by decide +kernel
  obtain ⟨s, run, waits⟩ := Option.map_eq_some_iff.mp ran
  obtain ⟨first, second⟩ := of_decide_eq_true waits
  intro never
  exact never s (Schedule.reaches_of_run run) ⟨0, .tail (.single first) second⟩

end Finstack
