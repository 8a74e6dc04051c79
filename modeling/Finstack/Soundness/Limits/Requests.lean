import Finstack.Soundness.Limits.Statements

/-! # The steps of requests

Every step keeps what the calls know and what is stored.
-/

namespace Finstack.Requests

open Foundation

variable {ι : Type} [DecidableEq ι] {setting : Setting} {o o' : Office ι} {i j : ι} {call : Call}
  {pc : Pc} {request : Request} {transaction : Transaction} {id : Uuid} {begun : Begun}
  {rule : LimitRule}

namespace Office

/-! ## What a query finds -/

omit [DecidableEq ι] in
theorem found_of_key {existing : Transaction} (found : o.findByIdempotencyKey request = some existing) :
    ∃ id, o.transactions.rows id = some existing ∧
      hasKey request.owner request.idempotencyKey existing = true := by
  obtain ⟨id, -, finds⟩ := List.exists_of_findSome?_eq_some found
  exact ⟨id, Option.filter_eq_some_iff.mp finds⟩

theorem Settled.found (rows : o.Rows) (settled : o.Settled request) :
    ∃ existing, o.findByIdempotencyKey request = some existing := by
  obtain ⟨id, transaction, there, named⟩ := settled
  apply Option.isSome_iff_exists.mp
  rw [findByIdempotencyKey, List.findSome?_isSome_iff]
  refine ⟨id, rows.within.of_shows (.inl there), ?_⟩
  simp [there, named]

/-- Without rows of its own, a call sees the committed usage. -/
theorem usageWithin_eq_used (unheld : ∀ id, o.transactions.holder id ≠ some i) (input : LimitInput)
    (since : Nat) : o.usageWithin i input since = o.used input since := by
  have view : o.transactions.view i = o.transactions.rows :=
    funext fun id => RowStore.view_of_not_held (unheld id)
  rw [usageWithin, used, view]

/-! ## The call that takes the step -/

/-- A step of `i`, with what its call knows after it. -/
theorem Inv.put (inv : o.Inv setting) (moves : Moves setting o o' i)
    (idle : o'.calls i = none → o'.Idle i)
    (holds : ∀ call, o'.calls i = some call →
      call.request.Valid ∧ o'.Holds setting i call.request call.pc) : o'.Inv setting where
  rows := moves.rows
  idle j new := by
    by_cases here : j = i
    · subst here
      exact idle new
    · rw [moves.calls j here] at new
      exact (moves.frame j here).idle (inv.idle j new)
  calls j call there := by
    by_cases here : j = i
    · subst here
      exact holds call there
    · rw [moves.calls j here] at there
      obtain ⟨valid, held⟩ := inv.calls j call there
      exact ⟨valid, held.frame (moves.frame j here)⟩

/-- A step of the call `i`. -/
theorem Inv.put_call (inv : o.Inv setting) (moves : Moves setting o o' i)
    (calls : o'.calls i = some call) (valid : call.request.Valid)
    (holds : o'.Holds setting i call.request call.pc) : o'.Inv setting := by
  apply inv.put moves
  · intro new
    rw [calls] at new
    cases new
  · intro call' there
    obtain rfl := Option.some.inj (calls.symm.trans there)
    exact ⟨valid, holds⟩

theorem calls_goto_self : (o.goto i call pc).calls i = some { call with pc } :=
  Function.update_self ..

/-- Only the call's place changes. -/
theorem Inv.goto (inv : o.Inv setting) (valid : call.request.Valid)
    (holds : o.Holds setting i call.request pc) : (o.goto i call pc).Inv setting :=
  inv.put_call (.goto inv.rows call pc) calls_goto_self valid (holds.frame (.goto o call pc))

/-- The transaction is rolled back, and the call goes on without it. -/
theorem Inv.abandon (inv : o.Inv setting) (valid : call.request.Valid)
    (holds : (o.rollback i).Holds setting i call.request pc) :
    ((o.rollback i).goto i call pc).Inv setting :=
  inv.put_call ((Moves.rollback inv.rows).trans (.goto inv.rows.rollback ..)) calls_goto_self
    valid (holds.frame (.goto _ call pc))

theorem Inv.throw (inv : o.Inv setting) (valid : call.request.Valid) (error : Err) :
    (o.throw i call error).Inv setting :=
  inv.abandon valid idle_rollback

/-! ## The checks -/

theorem Inv.decide (inv : o.Inv setting) (valid : call.request.Valid) {now : Nat}
    {daily : Usage} {monthly : Int} (locks : o.Locks setting i (limitInput call.request begun) rule)
    (checked : o.checkedAt i = some now)
    (amount : (o.used (limitInput call.request begun) (now - LimitsService.DAY_MS)).amount ≤
      daily.amount)
    (count : (o.used (limitInput call.request begun) (now - LimitsService.DAY_MS)).count ≤
      daily.count)
    (month : ∀ limit ∈ rule.maxMonthlyAmount,
      (o.used (limitInput call.request begun) (now - LimitsService.MONTH_MS)).amount ≤ monthly) :
    (o.decide i call begun (LimitsService.checkUsage rule (limitInput call.request begun) daily
      monthly)).Inv setting := by
  cases checks : LimitsService.checkUsage rule (limitInput call.request begun) daily monthly with
  | error error => exact inv.throw valid error
  | ok =>
    obtain ⟨byCount, byAmount, byMonth⟩ := LimitsService.checkUsage_ok_iff.mp checks
    apply inv.goto valid
    refine ⟨locks.transactions, fun rule' active => ?_⟩
    obtain rfl := Option.some.inj (locks.active.symm.trans active)
    refine ⟨locks.within, fun _ => ⟨locks.holder, now, checked, ?_, ?_, ?_⟩⟩
    · intro limit set
      have := byCount limit set
      omega
    · intro limit set
      have := byAmount limit set
      omega
    · intro limit set
      have := byMonth limit set
      have := month limit set
      omega

theorem Inv.assertWithinLimits (inv : o.Inv setting) (valid : call.request.Valid)
    (idle : o.Idle i) (at_ : call.pc = .assertWithinLimits begun)
    (advances : o.advance setting i call = some o') : o'.Inv setting := by
  simp only [Office.advance, at_] at advances
  split at advances
  next none_ =>
    obtain rfl := Option.some.inj advances
    apply inv.goto valid
    refine ⟨idle.transactions, fun rule active => ?_⟩
    rw [none_] at active
    cases active
  next rule active =>
    split at advances
    next error above =>
      obtain rfl := Option.some.inj advances
      exact inv.throw valid error
    next within =>
      split_ifs at advances with reads
      · obtain rfl := Option.some.inj advances
        exact inv.goto valid ⟨idle, active, within, reads⟩
      · obtain rfl := Option.some.inj advances
        apply inv.goto valid
        refine ⟨idle.transactions, fun rule' active' => ?_⟩
        obtain rfl := Option.some.inj (active.symm.trans active')
        exact ⟨within, fun uses => (reads uses).elim⟩

/-- The own transaction is updated to successful. -/
theorem Inv.transition {patch : TransitionPatch} (inv : o.Inv setting)
    (valid : call.request.Valid) (made : o.Made setting i call.request transaction)
    (at_ : call.pc = .transition transaction patch)
    (advances : o.advance setting i call = some o') : o'.Inv setting := by
  simp only [Office.advance, at_, made.view] at advances
  split_ifs at advances with allowed
  · obtain rfl := Option.some.inj advances
    have free : o.transactions.Free i transaction.id := .inr made.holder
    have rows := inv.rows.update made.holder made.view patch .successful
    refine inv.put_call (.write _ free rfl ⟨rows.keys, rows.within, rows.nodup, rows.named,
      rows.positive, rows.added⟩ (fun _ => .refl rfl rfl) rfl rfl
      fun j other => Function.update_of_ne other ..) calls_goto_self valid ?_
    refine ⟨RowStore.holder_write_self, made.row, RowStore.view_write_self, fun l mine => ?_,
      made.key, made.type, made.amount,
      made.cleared.less (fun _ held => held) rfl fun _ _ _ _ => .refl rfl rfl⟩
    by_contra other
    have other : l ≠ transaction.id := other
    have mine : (o.transactions.write i transaction.id
      (some (patch.apply .successful transaction))).holder l = some i := mine
    rw [RowStore.holder_write_ne other] at mine
    exact other (made.only l mine)
  · obtain rfl := Option.some.inj advances
    exact inv.throw valid _

theorem Inv.advance (inv : o.Inv setting) (here : o.calls i = some call)
    (advances : o.advance setting i call = some o') : o'.Inv setting := by
  obtain ⟨valid, holds⟩ := inv.calls i call here
  cases at_ : call.pc with
  | findExisting =>
    rw [at_] at holds
    simp only [Office.advance, at_] at advances
    split at advances
    next existing found =>
      obtain rfl := Option.some.inj advances
      obtain ⟨id, there, named⟩ := found_of_key found
      obtain rfl := inv.rows.named id existing (.inl there)
      exact inv.goto valid ⟨holds, named, existing, there, named⟩
    next =>
      obtain rfl := Option.some.inj advances
      exact inv.goto valid holds
  | begin terms =>
    rw [at_] at holds
    simp only [Office.advance, at_] at advances
    obtain rfl := Option.some.inj advances
    exact inv.goto valid holds
  | assertWithinLimits begun =>
    rw [at_] at holds
    exact inv.assertWithinLimits valid holds at_ advances
  | lock begun rule =>
    rw [at_] at holds
    obtain ⟨idle, active, within, reads⟩ := holds
    simp only [Office.advance, at_] at advances
    split_ifs at advances with free
    obtain rfl := Option.some.inj advances
    exact inv.put_call (.lock inv.rows free call _) calls_goto_self valid
      ⟨idle.transactions, active, within, reads, Function.update_self ..⟩
  | usage begun rule =>
    rw [at_] at holds
    simp only [Office.advance, at_] at advances
    obtain rfl := Option.some.inj advances
    exact inv.put_call (.check inv.rows call _) calls_goto_self valid
      ⟨⟨holds.transactions, holds.active, holds.within, holds.reads, holds.holder⟩,
        Function.update_self ..⟩
  | daily begun rule now =>
    rw [at_] at holds
    obtain ⟨locks, checked⟩ := holds
    simp only [Office.advance, at_, usageWithin_eq_used locks.transactions] at advances
    split_ifs at advances with monthly
    · obtain rfl := Option.some.inj advances
      exact inv.goto valid ⟨locks, checked, le_refl _, le_refl _⟩
    · obtain rfl := Option.some.inj advances
      apply inv.decide valid locks checked (le_refl _) (le_refl _)
      intro limit set
      rw [Option.mem_def.mp set] at monthly
      exact (monthly rfl).elim
  | monthly begun rule now daily =>
    rw [at_] at holds
    obtain ⟨locks, checked, amount, count⟩ := holds
    simp only [Office.advance, at_, usageWithin_eq_used locks.transactions] at advances
    obtain rfl := Option.some.inj advances
    exact inv.decide valid locks checked amount count fun _ _ => le_refl _
  | transition transaction patch =>
    rw [at_] at holds
    exact inv.transition valid holds at_ advances
  | commit transaction =>
    rw [at_] at holds
    have made : o.Made setting i call.request transaction := holds
    simp only [Office.advance, at_] at advances
    obtain rfl := Option.some.inj advances
    have commits := Moves.commit inv.rows made
    refine inv.put_call (commits.trans (.goto commits.rows ..)) calls_goto_self valid ?_
    have goes : (o.commit i).Frame setting
      ((o.commit i).goto i call (.finish transaction)) i := .goto ..
    exact ⟨goes.idle idle_commit, made.key, transaction, made.view, made.key⟩
  | findWinner error =>
    rw [at_] at holds
    obtain ⟨idle, settled⟩ := holds
    obtain ⟨existing, found⟩ := settled.found inv.rows
    simp only [Office.advance, at_, found] at advances
    obtain rfl := Option.some.inj advances
    obtain ⟨id, there, named⟩ := found_of_key found
    obtain rfl := inv.rows.named id existing (.inl there)
    exact inv.goto valid ⟨idle, named, existing, there, named⟩
  | finish transaction =>
    rw [at_] at holds
    simp only [Office.advance, at_] at advances
    obtain rfl := Option.some.inj advances
    exact inv.goto valid holds
  | prepare | create | move | returned | threw | crashed =>
    simp only [Office.advance, at_, reduceCtorEq] at advances

theorem Inv.create {reference : String} (inv : o.Inv setting) (here : o.calls i = some call)
    (creates : o.create i id reference call = some o') : o'.Inv setting := by
  obtain ⟨valid, holds⟩ := inv.calls i call here
  unfold Office.create at creates
  split at creates
  next begun at_ =>
    rw [at_] at holds
    obtain ⟨unheld, cleared⟩ := holds
    simp only [Option.ite_none_left_eq_some] at creates
    obtain ⟨fresh, creates⟩ := creates
    split_ifs at creates with taken caught_ waits
    · obtain rfl := Option.some.inj creates
      apply inv.abandon valid
      refine ⟨idle_rollback, ?_⟩
      obtain ⟨l, -, -, -, shown⟩ := taken
      rw [RowStore.view_of_not_held (unheld l)] at shown
      obtain ⟨transaction, there, named⟩ := (Option.any_eq_true ..).mp shown
      exact ⟨l, transaction, there, named⟩
    · obtain rfl := Option.some.inj creates
      exact inv.throw valid _
    · obtain rfl := Option.some.inj creates
      have free : o.transactions.Free i id := .inl (inv.rows.within id fresh).2
      have clear := RowStore.clear_of_not_taken inv.rows.within taken waits
      have key : hasKey call.request.owner call.request.idempotencyKey
          (newTransaction id reference call.request begun) = true := by
        simp [hasKey, newTransaction]
      have rows : ({ o with
          ids := id :: o.ids
          transactions := o.transactions.write i id
            (some (newTransaction id reference call.request begun)) } : Office ι).Rows := by
        apply inv.rows.insert (newTransaction id reference call.request begun) fresh valid.1
        intro owner key named
        rw [hasKey, Bool.and_eq_true] at named
        obtain rfl : call.request.owner = owner := of_decide_eq_true named.1
        obtain rfl : call.request.idempotencyKey = key :=
          Option.some.inj (of_decide_eq_true named.2)
        exact clear
      have less : ∀ input, o.Less { o.goto i call
          (.move (newTransaction id reference call.request begun)) with
          ids := id :: o.ids
          transactions := o.transactions.write i id
            (some (newTransaction id reference call.request begun)) } input :=
        fun _ => .cons rfl rfl (inv.rows.within id fresh).1
      refine inv.put_call (.write _ free rfl ⟨rows.keys, rows.within, rows.nodup, rows.named,
        rows.positive, rows.added⟩ less rfl rfl
        fun j other => Function.update_of_ne other ..) calls_goto_self valid ?_
      refine ⟨RowStore.holder_write_self, (inv.rows.within id fresh).1, RowStore.view_write_self,
        fun l mine => ?_, key, rfl, rfl,
        cleared.less (fun _ held => held) rfl fun _ _ _ _ => less _⟩
      by_contra other
      have other : l ≠ id := other
      have mine : (o.transactions.write i id
        (some (newTransaction id reference call.request begun))).holder l = some i := mine
      rw [RowStore.holder_write_ne other] at mine
      exact unheld l mine
  next => cases creates

/-! ## Everyone else -/

/-- Another transaction writes one row and commits it. -/
theorem Inv.outside {ids : List Uuid} (inv : o.Inv setting) (transaction : Transaction)
    (new : o.calls i = none) (free : o.transactions.holder transaction.id = none)
    (positive : 0 < transaction.amount) (known : transaction.id ∈ ids) (subset : o.ids ⊆ ids)
    (nodup : ids.Nodup)
    (clear : ∀ owner key, hasKey owner key transaction = true →
      o.transactions.Clear (hasKey owner key) i transaction.id)
    (kept : ∀ old, o.transactions.rows transaction.id = some old → ∀ owner key,
      hasKey owner key transaction = hasKey owner key old)
    (less : ∀ input, o.Less { o with
      ids := ids
      transactions := (o.transactions.write i transaction.id (some transaction)).commit i } input) :
    ({ o with
      ids := ids
      transactions := (o.transactions.write i transaction.id (some transaction)).commit i } :
        Office ι).Inv setting := by
  have idle := inv.idle i new
  have free_ : o.transactions.Free i transaction.id := .inl free
  have rows' : ((o.transactions.write i transaction.id (some transaction)).commit i).rows =
      Function.update o.transactions.rows transaction.id (some transaction) :=
    RowStore.rows_commit_write idle.transactions
  have holder' : ∀ j l, ((o.transactions.write i transaction.id (some transaction)).commit
      i).holder l = some j → l ≠ transaction.id ∧ o.transactions.holder l = some j ∧ j ≠ i := by
    intro j l held
    obtain ⟨held, other⟩ := RowStore.holder_commit.mp held
    have apart : l ≠ transaction.id := by
      rintro rfl
      rw [RowStore.holder_write_self] at held
      exact other (Option.some.inj held).symm
    rw [RowStore.holder_write_ne apart] at held
    exact ⟨apart, held, other⟩
  have moves : Moves setting o { o with
      ids := ids
      transactions := (o.transactions.write i transaction.id (some transaction)).commit i } i := by
    constructor
    · refine ⟨?_, ?_, nodup, ?_, ?_, ?_⟩
      · intro owner key
        apply RowStore.OneOf.commit
        by_cases named : hasKey owner key transaction = true
        · exact (inv.rows.keys owner key).write free_ (clear owner key named)
        · exact (inv.rows.keys owner key).write_other free_ (by simpa using named)
      · apply RowStore.Within.commit
        apply RowStore.Within.write _ known
        exact fun l outside => inv.rows.within l fun member => outside (subset member)
      · intro l row shown
        rcases RowStore.shows_write free_ (RowStore.shows_commit shown) with old | ⟨rfl, there⟩
        · exact inv.rows.named l row old
        · rw [Option.some.inj there]
      · intro l row shown
        rcases RowStore.shows_write free_ (RowStore.shows_commit shown) with old | ⟨rfl, there⟩
        · exact inv.rows.positive l row old
        · rwa [← Option.some.inj there]
      · intro j l held
        obtain ⟨apart, held, -⟩ := holder' j l held
        show ((o.transactions.write i transaction.id (some transaction)).commit i).rows l = none
        rw [rows', Function.update_of_ne apart]
        exact inv.rows.added j l held
    · intro j other
      refine ⟨(RowStore.keeps_write other free_).trans (RowStore.keeps_commit other),
        fun _ => Iff.rfl, rfl, ?_, fun input _ _ _ _ => less input⟩
      intro l row there
      show ∃ current, ((o.transactions.write i transaction.id (some transaction)).commit i).rows l =
        some current ∧ _
      rw [rows']
      by_cases here : l = transaction.id
      · subst here
        exact ⟨transaction, Function.update_self .., kept row there⟩
      · exact ⟨row, (Function.update_of_ne here ..).trans there, fun _ _ => rfl⟩
    · exact fun _ _ => rfl
  apply inv.put moves
  · exact fun _ => ⟨fun l mine => (holder' i l mine).2.2 rfl, idle.advisory⟩
  · intro call there
    have there : o.calls i = some call := there
    rw [new] at there
    cases there

theorem Inv.settle {status : TransactionStatus} {patch : TransitionPatch} (inv : o.Inv setting)
    (new : o.calls i = none) (free : o.transactions.holder id = none)
    (there : o.transactions.rows id = some transaction)
    (allowed : canTransition transaction.status status = true) :
    ({ o with transactions :=
      (o.transactions.write i id (some (patch.apply status transaction))).commit i } :
        Office ι).Inv setting := by
  obtain rfl := inv.rows.named id transaction (.inl there)
  have known := inv.rows.within.of_shows (.inl there)
  have positive := inv.rows.positive transaction.id transaction (.inl there)
  have rows' : ((o.transactions.write i transaction.id
      (some (patch.apply status transaction))).commit i).rows = Function.update
        o.transactions.rows transaction.id (some (patch.apply status transaction)) :=
    RowStore.rows_commit_write (inv.idle i new).transactions
  apply inv.outside (patch.apply status transaction) new free positive known (List.Subset.refl _)
    inv.rows.nodup
  · intro owner key named
    apply (inv.rows.keys owner key).clear_of_row free
    rw [hasKey_apply] at named
    simpa [there] using named
  · intro old there' owner key
    rw [Option.some.inj (there'.symm.trans there)]
    exact hasKey_apply ..
  · intro input
    refine Less.of_rows rfl ?_ ?_
    · intro since l row shown counts
      have shown : ((o.transactions.write i transaction.id
        (some (patch.apply status transaction))).commit i).rows l = some row := shown
      rw [rows'] at shown
      by_cases here : l = transaction.id
      · subst here
        rw [Function.update_self] at shown
        obtain rfl := Option.some.inj shown
        exact ⟨transaction, there, counts_of_apply allowed counts, rfl⟩
      · rw [Function.update_of_ne here] at shown
        exact ⟨row, shown, counts, rfl⟩
    · exact fun l row old => inv.rows.positive l row (.inl old)

theorem Inv.refund (inv : o.Inv setting) (new : o.calls i = none)
    (fresh : transaction.id ∉ o.ids) (type : transaction.type = .refund)
    (unnamed : transaction.idempotencyKey = none) (positive : 0 < transaction.amount) :
    ({ o with
      ids := transaction.id :: o.ids
      transactions := (o.transactions.write i transaction.id (some transaction)).commit i } :
        Office ι).Inv setting := by
  obtain ⟨vacant, free⟩ := inv.rows.within _ fresh
  have rows' : ((o.transactions.write i transaction.id (some transaction)).commit i).rows =
      Function.update o.transactions.rows transaction.id (some transaction) :=
    RowStore.rows_commit_write (inv.idle i new).transactions
  apply inv.outside transaction new free positive List.mem_cons_self (List.subset_cons_self _ _)
    (List.nodup_cons.mpr ⟨fresh, inv.rows.nodup⟩)
  · intro owner key named
    simp [hasKey, unnamed] at named
  · intro old there
    rw [vacant] at there
    cases there
  · intro input
    -- a refund is none of the operations that have limits
    have uncounted : ∀ since, countsFor input since transaction = false := by
      intro since
      cases operation : input.operation <;>
        simp [countsFor, TransactionsService.counts, type, operation,
          LimitsService.TRANSACTION_TYPES]
    have inserted : o.Less { o with ids := transaction.id :: o.ids } input :=
      .cons rfl rfl vacant
    refine inserted.trans (Less.of_rows rfl ?_ ?_)
    · intro since l row shown counts
      have shown : ((o.transactions.write i transaction.id
        (some transaction)).commit i).rows l = some row := shown
      rw [rows'] at shown
      by_cases here : l = transaction.id
      · subst here
        rw [Function.update_self] at shown
        rw [← Option.some.inj shown, uncounted] at counts
        cases counts
      · rw [Function.update_of_ne here] at shown
        exact ⟨row, shown, counts, rfl⟩
    · exact fun l row old => inv.rows.positive l row (.inl old)

theorem Inv.tick (inv : o.Inv setting) (now : Nat) : ({ o with now } : Office ι).Inv setting :=
  have same : ∀ j, o.Frame setting { o with now } j := fun j =>
    ⟨.refl _ j, fun _ => Iff.rfl, rfl, fun _ transaction there => ⟨transaction, there,
      fun _ _ => rfl⟩, fun _ _ _ _ _ => .refl rfl rfl⟩
  ⟨⟨inv.rows.keys, inv.rows.within, inv.rows.nodup, inv.rows.named, inv.rows.positive,
      inv.rows.added⟩,
    fun j new => (same j).idle (inv.idle j new),
    fun j call here => ⟨(inv.calls j call here).1, (inv.calls j call here).2.frame (same j)⟩⟩

theorem Inv.start (now : Nat) : (Office.start now : Office ι).Inv setting where
  rows := .start now
  idle _ _ := ⟨by simp [Office.start, RowStore.start], by simp [Office.start]⟩
  calls := by simp [Office.start]

theorem Inv.step {a : Action ι} (inv : o.Inv setting)
    (stepped : Office.step setting a o = some o') : o'.Inv setting := by
  cases a with
  | tick now =>
    simp only [Office.step, Option.ite_none_right_eq_some] at stepped
    obtain ⟨-, stepped⟩ := stepped
    obtain rfl := Option.some.inj stepped
    exact inv.tick now
  | settle i id status patch =>
    simp only [Office.step] at stepped
    split at stepped
    · cases stepped
    next current there =>
      simp only [Option.ite_none_right_eq_some] at stepped
      obtain ⟨⟨new, free, allowed⟩, stepped⟩ := stepped
      obtain rfl := Option.some.inj stepped
      exact inv.settle new free there allowed
  | refund i transaction =>
    simp only [Office.step, Option.ite_none_right_eq_some] at stepped
    obtain ⟨⟨new, fresh, type, unnamed, positive⟩, stepped⟩ := stepped
    obtain rfl := Option.some.inj stepped
    exact inv.refund new fresh type unnamed positive
  | request i request =>
    simp only [Office.step, Option.ite_none_right_eq_some] at stepped
    obtain ⟨⟨new, valid⟩, stepped⟩ := stepped
    obtain rfl := Option.some.inj stepped
    exact inv.goto valid (inv.idle i new)
  | prepare i terms =>
    obtain ⟨call, here, goes⟩ := Option.bind_eq_some_iff.mp stepped
    obtain ⟨valid, holds⟩ := inv.calls i call here
    split_ifs at goes with at_
    obtain rfl := Option.some.inj goes
    rw [at_] at holds
    exact inv.goto valid holds
  | advance i =>
    obtain ⟨call, here, advances⟩ := Option.bind_eq_some_iff.mp stepped
    exact inv.advance here advances
  | create i id reference =>
    obtain ⟨call, here, creates⟩ := Option.bind_eq_some_iff.mp stepped
    exact inv.create here creates
  | move i patch =>
    obtain ⟨call, here, goes⟩ := Option.bind_eq_some_iff.mp stepped
    obtain ⟨valid, holds⟩ := inv.calls i call here
    split at goes
    next transaction at_ =>
      rw [at_] at holds
      split_ifs at goes
      · obtain rfl := Option.some.inj goes
        exact inv.goto valid holds
      · obtain rfl := Option.some.inj goes
        exact inv.goto valid holds
    next => cases goes
  | refuse i error =>
    obtain ⟨call, here, throws⟩ := Option.bind_eq_some_iff.mp stepped
    split_ifs at throws
    obtain rfl := Option.some.inj throws
    exact inv.throw (inv.calls i call here).1 error
  | crash i =>
    obtain ⟨call, here, crashes⟩ := Option.bind_eq_some_iff.mp stepped
    split_ifs at crashes
    obtain rfl := Option.some.inj crashes
    exact inv.abandon (inv.calls i call here).1 idle_rollback

theorem Reaches.inv {Admits : Action ι → Office ι → Prop} {now : Nat}
    (reaches : Reaches setting Admits (.start now) o) : o.Inv setting :=
  Schedule.Reaches.invariant reaches (Inv setting)
    (fun _ _ _ inv _ stepped => inv.step stepped) (.start now)

end Office

end Finstack.Requests
