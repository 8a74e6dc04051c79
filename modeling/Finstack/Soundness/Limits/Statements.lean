import Finstack.Soundness.Limits.Calls

/-! # What the statements of a request keep

A lock, an insert, an update, a commit and a rollback of one transaction: what is kept of the rows,
and of what the other calls know.
-/

namespace Finstack.Requests

open Foundation

variable {ι : Type} [DecidableEq ι] {setting : Setting} {o o' o'' : Office ι} {i j : ι}
  {call : Call} {pc : Pc} {request : Request} {input : LimitInput} {transaction : Transaction}
  {id : Uuid}

/-! ## Keys and statuses -/

/-- What counts for one input is checked under one lock and by one rule. -/
theorem same_scope (setting : Setting) (input' : LimitInput) {since : Nat}
    (owner : transaction.owner = input'.owner)
    (type : transaction.type = LimitsService.TRANSACTION_TYPES input'.operation)
    (currency : transaction.currency = input'.currency)
    (counts : countsFor input since transaction = true) :
    setting.activeRule input' = setting.activeRule input ∧
      setting.lockKey input' = setting.lockKey input := by
  simp only [countsFor, TransactionsService.counts, Bool.and_eq_true, decide_eq_true_eq] at counts
  have operation : input'.operation = input.operation := by
    have types := type.symm.trans counts.1.1.1.2
    cases operation : input'.operation <;> cases operation' : input.operation <;>
      simp_all [LimitsService.TRANSACTION_TYPES]
  have owner := owner.symm.trans counts.1.1.1.1
  have currency := currency.symm.trans counts.1.1.2
  simp [Setting.activeRule, Setting.lockKey, owner, operation, currency]

/-- Nothing counts again that has ceased to count. -/
theorem counts_of_apply {since : Nat} {status : TransactionStatus} {patch : TransitionPatch}
    (allowed : canTransition transaction.status status = true)
    (counts : countsFor input since (patch.apply status transaction) = true) :
    countsFor input since transaction = true := by
  simp only [countsFor, TransactionsService.counts, TransitionPatch.apply, Bool.and_eq_true,
    Bool.not_eq_true'] at counts ⊢
  refine ⟨counts.1, ?_⟩
  cases status' : transaction.status <;> rw [status'] at allowed <;>
    first | rfl | simp [canTransition, TRANSACTION_TRANSITIONS] at allowed

theorem hasKey_apply (owner : Owner) (key : String) (patch : TransitionPatch)
    (status : TransactionStatus) (transaction : Transaction) :
    hasKey owner key (patch.apply status transaction) = hasKey owner key transaction := rfl

namespace Office

/-! ## Rows -/

theorem Rows.start (now : Nat) : (Office.start now : Office ι).Rows where
  keys _ _ := .start
  within _ _ := ⟨rfl, rfl⟩
  nodup := List.nodup_nil
  named := by simp [Office.start, RowStore.Shows, RowStore.start]
  positive := by simp [Office.start, RowStore.Shows, RowStore.start]
  added := by simp [Office.start, RowStore.start]

theorem Rows.commit (rows : o.Rows) : (o.commit i).Rows where
  keys owner key := (rows.keys owner key).commit
  within := rows.within.commit
  nodup := rows.nodup
  named id transaction shown := rows.named id transaction (RowStore.shows_commit shown)
  positive id transaction shown := rows.positive id transaction (RowStore.shows_commit shown)
  added j id held := by
    obtain ⟨held, other⟩ := RowStore.holder_commit.mp held
    have unheld : o.transactions.holder id ≠ some i := by
      rw [held]
      exact fun mine => other (Option.some.inj mine)
    exact (RowStore.view_of_not_held unheld).trans (rows.added j id held)

theorem Rows.rollback (rows : o.Rows) : (o.rollback i).Rows where
  keys owner key := (rows.keys owner key).rollback
  within := rows.within.rollback
  nodup := rows.nodup
  named id transaction shown := rows.named id transaction (RowStore.shows_rollback shown)
  positive id transaction shown := rows.positive id transaction (RowStore.shows_rollback shown)
  added j id held := rows.added j id (RowStore.holder_rollback.mp held).1

/-- A committed row is what everyone sees. -/
theorem Rows.view_of_rows (rows : o.Rows) (there : o.transactions.rows id = some transaction) :
    o.transactions.view i id = some transaction := by
  rw [RowStore.view_of_not_held]
  · exact there
  · intro mine
    rw [rows.added i id mine] at there
    cases there

/-! ## A step of one transaction -/

/-- A step of `i` that keeps the rows and leaves to the others what they know. -/
structure Moves (setting : Setting) (o o' : Office ι) (i : ι) : Prop where
  rows : o'.Rows
  frame : ∀ j, j ≠ i → o.Frame setting o' j
  calls : ∀ j, j ≠ i → o'.calls j = o.calls j

theorem Moves.trans (first : Moves setting o o' i) (second : Moves setting o' o'' i) :
    Moves setting o o'' i where
  rows := second.rows
  frame j other := (first.frame j other).trans (second.frame j other)
  calls j other := (second.calls j other).trans (first.calls j other)

/-- The call goes on. -/
theorem Frame.goto (o : Office ι) (call : Call) (pc : Pc) :
    o.Frame setting (o.goto i call pc) j :=
  ⟨.refl _ j, fun _ => Iff.rfl, rfl, fun _ transaction there => ⟨transaction, there, fun _ _ => rfl⟩,
    fun _ _ _ _ _ => .refl rfl rfl⟩

theorem Moves.goto (rows : o.Rows) (call : Call) (pc : Pc) :
    Moves setting o (o.goto i call pc) i where
  rows := ⟨rows.keys, rows.within, rows.nodup, rows.named, rows.positive, rows.added⟩
  frame _ _ := .goto o call pc
  calls _ other := Function.update_of_ne other ..

theorem advisory_release (key : Int) :
    o.release i key = some j ↔ o.advisory key = some j ∧ j ≠ i :=
  RowStore.given_up

theorem Moves.rollback (rows : o.Rows) : Moves setting o (o.rollback i) i where
  rows := rows.rollback
  frame _ other :=
    ⟨RowStore.keeps_rollback other, fun key => (advisory_release key).trans (and_iff_left other),
      rfl, fun _ transaction there => ⟨transaction, there, fun _ _ => rfl⟩,
      fun _ _ _ _ _ => .refl rfl rfl⟩
  calls _ _ := rfl

theorem idle_rollback : (o.rollback i).Idle i where
  transactions _ mine := (RowStore.holder_rollback.mp mine).2 rfl
  advisory key mine := ((advisory_release key).mp mine).2 rfl

theorem idle_commit : (o.commit i).Idle i where
  transactions _ mine := (RowStore.holder_commit.mp mine).2 rfl
  advisory key mine := ((advisory_release key).mp mine).2 rfl

/-- What a call has made counts only for itself while it has the lock. -/
theorem Moves.commit (rows : o.Rows) (made : o.Made setting i request transaction) :
    Moves setting o (o.commit i) i where
  rows := rows.commit
  frame j other := by
    refine ⟨RowStore.keeps_commit other,
      fun key => (advisory_release key).trans (and_iff_left other), rfl, ?_, ?_⟩
    · exact fun id current there => ⟨current, rows.view_of_rows there, fun _ _ => rfl⟩
    · intro input rule active reads held
      refine Less.of_rows rfl ?_ ?_
      · intro since id new there counts
        have there : o.transactions.view i id = some new := there
        by_cases mine : o.transactions.holder id = some i
        · obtain rfl := made.only id mine
          obtain rfl := Option.some.inj (made.view.symm.trans there)
          have key := made.key
          simp only [hasKey, Bool.and_eq_true, decide_eq_true_eq] at key
          obtain ⟨sameRule, sameKey⟩ := same_scope setting ⟨request.owner, request.operation,
            transaction.currency, request.amount⟩ key.1 made.type rfl counts
          obtain ⟨-, holds⟩ := made.cleared rule (sameRule.trans active)
          have mine := (holds reads).1
          rw [sameKey, held] at mine
          exact (other (Option.some.inj mine)).elim
        · rw [RowStore.view_of_not_held mine] at there
          exact ⟨new, there, counts, rfl⟩
      · exact fun id old there => rows.positive id old (.inl there)
  calls _ _ := rfl

omit [DecidableEq ι] in
/-- An id without a committed row adds nothing. -/
theorem Less.cons (rows : o'.transactions.rows = o.transactions.rows) (ids : o'.ids = id :: o.ids)
    (vacant : o.transactions.rows id = none) : o.Less o' input := by
  constructor
  · intro since
    simp [used_amount, rows, ids, total, vacant]
  · intro since
    simp [used_count, rows, ids, total, vacant]

/-- A row is inserted under a new id. -/
theorem Rows.insert (rows : o.Rows) (transaction : Transaction) (new : transaction.id ∉ o.ids)
    (positive : 0 < transaction.amount)
    (clear : ∀ owner key, hasKey owner key transaction = true →
      o.transactions.Clear (hasKey owner key) i transaction.id) :
    ({ o with
      ids := transaction.id :: o.ids
      transactions := o.transactions.write i transaction.id (some transaction) } :
        Office ι).Rows := by
  have free : o.transactions.Free i transaction.id := .inl (rows.within _ new).2
  refine ⟨?_, rows.within.cons.write List.mem_cons_self, List.nodup_cons.mpr ⟨new, rows.nodup⟩,
    ?_, ?_, ?_⟩
  · intro owner key
    by_cases named : hasKey owner key transaction = true
    · exact (rows.keys owner key).write free (clear owner key named)
    · exact (rows.keys owner key).write_other free (by simpa using named)
  · intro l row shown
    rcases RowStore.shows_write free shown with old | ⟨rfl, there⟩
    · exact rows.named l row old
    · rw [Option.some.inj there]
  · intro l row shown
    rcases RowStore.shows_write free shown with old | ⟨rfl, there⟩
    · exact rows.positive l row old
    · rwa [← Option.some.inj there]
  · intro j l held
    by_cases here : l = transaction.id
    · rw [here]
      exact (rows.within _ new).1
    · exact rows.added j l ((RowStore.holder_write_ne here).symm.trans held)

/-- The call's own row is updated. -/
theorem Rows.update (rows : o.Rows) (held : o.transactions.holder id = some i)
    (seen : o.transactions.view i id = some transaction) (patch : TransitionPatch)
    (status : TransactionStatus) :
    ({ o with transactions :=
      o.transactions.write i id (some (patch.apply status transaction)) } : Office ι).Rows := by
  have free : o.transactions.Free i id := .inr held
  have shown := RowStore.shows_of_view seen
  refine ⟨?_, rows.within.write (rows.within.of_shows shown), rows.nodup, ?_, ?_, ?_⟩
  · intro owner key
    by_cases named : hasKey owner key transaction = true
    · apply (rows.keys owner key).write free
      apply (rows.keys owner key).drafts i id held
      simpa [seen] using named
    · exact (rows.keys owner key).write_other free (by simpa [hasKey_apply] using named)
  · intro l row shown'
    rcases RowStore.shows_write free shown' with old | ⟨rfl, there⟩
    · exact rows.named l row old
    · rw [← Option.some.inj there]
      exact rows.named l transaction shown
  · intro l row shown'
    rcases RowStore.shows_write free shown' with old | ⟨rfl, there⟩
    · exact rows.positive l row old
    · rw [← Option.some.inj there]
      exact rows.positive l transaction shown
  · intro j l held'
    by_cases here : l = id
    · rw [here]
      exact rows.added i id held
    · exact rows.added j l ((RowStore.holder_write_ne here).symm.trans held')

/-- Nothing is committed and no advisory lock is taken. -/
theorem Moves.write (row : Transaction) (free : o.transactions.Free i id)
    (transactions : o'.transactions = o.transactions.write i id (some row)) (rows : o'.Rows)
    (less : ∀ input, o.Less o' input) (advisory : o'.advisory = o.advisory)
    (checkedAt : o'.checkedAt = o.checkedAt) (calls : ∀ j, j ≠ i → o'.calls j = o.calls j) :
    Moves setting o o' i where
  rows := rows
  frame j other := by
    refine ⟨?_, fun key => by rw [advisory], by rw [checkedAt], ?_, fun input _ _ _ _ => less input⟩
    · rw [transactions]
      exact RowStore.keeps_write other free
    · rw [transactions]
      exact fun _ transaction there => ⟨transaction, there, fun _ _ => rfl⟩
  calls := calls

/-- The lock of a limit is taken. -/
theorem Moves.lock {key : Int} (rows : o.Rows)
    (free : o.advisory key = none ∨ o.advisory key = some i) (call : Call) (pc : Pc) :
    Moves setting o { o.goto i call pc with
      advisory := Function.update o.advisory key (some i) } i where
  rows := ⟨rows.keys, rows.within, rows.nodup, rows.named, rows.positive, rows.added⟩
  frame j other := by
    refine ⟨.refl _ j, fun key' => ?_, rfl, fun _ transaction there => ⟨transaction, there,
      fun _ _ => rfl⟩, fun _ _ _ _ _ => .refl rfl rfl⟩
    show Function.update o.advisory key (some i) key' = some j ↔ _
    by_cases here : key' = key
    · subst here
      rw [Function.update_self]
      constructor
      · exact fun mine => (other (Option.some.inj mine).symm).elim
      · intro held
        rcases free with none | mine
        · rw [none] at held
          cases held
        · exact (other (Option.some.inj (held.symm.trans mine))).elim
    · rw [Function.update_of_ne here]
  calls _ other := Function.update_of_ne other ..

/-- The call reads the clock. -/
theorem Moves.check (rows : o.Rows) (call : Call) (pc : Pc) :
    Moves setting o { o.goto i call pc with
      checkedAt := Function.update o.checkedAt i (some o.now) } i where
  rows := ⟨rows.keys, rows.within, rows.nodup, rows.named, rows.positive, rows.added⟩
  frame _ other := ⟨.refl _ _, fun _ => Iff.rfl, Function.update_of_ne other ..,
    fun _ transaction there => ⟨transaction, there, fun _ _ => rfl⟩, fun _ _ _ _ _ => .refl rfl rfl⟩
  calls _ other := Function.update_of_ne other ..

end Office

end Finstack.Requests
