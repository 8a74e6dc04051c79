import Finstack.Soundness.Limits.Velocity

/-! # Requests under one key

A request whose key has a committed transaction returns it, unless it fails a limit that counts that
very transaction.
-/

namespace Finstack.Requests

open Foundation

variable {ι : Type} [DecidableEq ι] {setting : Setting} {o o' m : Office ι} {i j : ι}
  {call : Call} {pc : Pc} {request : Request} {transaction : Transaction} {id : Uuid}

/-! ## How far a call is -/

/-- How many of its own steps a call has left, at most. -/
def Pc.rank : Pc → Nat
  | .findExisting => 13
  | .prepare => 12
  | .begin _ => 11
  | .assertWithinLimits _ => 10
  | .lock _ _ => 9
  | .usage _ _ => 8
  | .daily _ _ _ => 7
  | .monthly _ _ _ _ => 6
  | .create _ => 5
  | .move _ => 4
  | .transition _ _ => 3
  | .commit _ | .findWinner _ => 2
  | .finish _ => 1
  | .returned _ | .threw _ | .crashed => 0

def Pc.hasThrown : Pc → Bool
  | .threw _ => true
  | _ => false

/-- The wallet is debited, or the amount held. -/
def Pc.movesMoney : Pc → Bool
  | .move _ => true
  | _ => false

namespace Office

/-- The statement that the call is at checks no limit, or finds it kept to. -/
def leavesRoom (setting : Setting) (o : Office ι) (i : ι) (call : Call) : Bool :=
  match call.pc with
  | .assertWithinLimits begun =>
    let input := limitInput call.request begun
    (setting.activeRule input).all fun rule => (LimitsService.checkTransaction rule input).isOk
  | .daily begun rule now =>
    let input := limitInput call.request begun
    let daily := o.usageWithin i input (now - LimitsService.DAY_MS)
    rule.maxMonthlyAmount.isSome || (LimitsService.checkUsage rule input daily 0).isOk
  | .monthly begun rule now daily =>
    let input := limitInput call.request begun
    let monthly := o.usageWithin i input (now - LimitsService.MONTH_MS)
    (LimitsService.checkUsage rule input daily monthly.amount).isOk
  | _ => true

/-- Once its key has a committed transaction, every limit that a call is checked against leaves room
for it, and nothing but the movement of money refuses it. -/
def Guards (setting : Setting) : Action ι → Office ι → Prop
  | .advance i, o => ((o.calls i).all fun call =>
      (o.findByIdempotencyKey call.request).isNone || o.leavesRoom setting i call) = true
  | .refuse i _, o => ((o.calls i).all fun call =>
      (o.findByIdempotencyKey call.request).isNone || call.pc.movesMoney) = true
  | _, _ => True

instance (a : Action ι) (o : Office ι) : Decidable (Guards setting a o) := by
  cases a <;> unfold Guards <;> infer_instance

/-! ## What a step does to its call -/

/-- The call takes one of its steps. -/
structure Goes (o o' : Office ι) (i : ι) (call : Call) (pc : Pc) : Prop where
  calls : o'.calls = Function.update o.calls i (some { call with pc })
  rank : pc.rank < call.pc.rank
  rows : o'.transactions.rows = o.transactions.rows ∨
    o'.transactions.rows = o.transactions.view i

/-- A step that commits nothing. -/
theorem Goes.quiet (calls : o'.calls = Function.update o.calls i (some { call with pc }))
    (rank : pc.rank < call.pc.rank) (rows : o'.transactions.rows = o.transactions.rows) :
    o.Goes o' i call pc :=
  ⟨calls, rank, .inl rows⟩

/-- A step that commits nothing and throws nothing. -/
theorem goes_on {old pc : Pc} {Why : Prop} (at_ : call.pc = old)
    (calls : o'.calls = Function.update o.calls i (some { call with pc }))
    (rows : o'.transactions.rows = o.transactions.rows) (rank : pc.rank < old.rank)
    (runs : pc.hasThrown = false) :
    ∃ pc, o.Goes o' i call pc ∧ (pc.hasThrown = true → Why) := by
  refine ⟨pc, .quiet calls (by rw [at_]; exact rank) rows, fun thrown => ?_⟩
  rw [runs] at thrown
  cases thrown

/-- What a statement of the call `i` does to the call. -/
theorem advance_cases (advances : o.advance setting i call = some o') :
    ∃ pc, o.Goes o' i call pc ∧ (pc.hasThrown = true → o.leavesRoom setting i call = false ∨
      (∃ transaction patch, call.pc = .transition transaction patch) ∨
      ∃ error, call.pc = .findWinner error ∧ o.findByIdempotencyKey call.request = none) := by
  cases at_ : call.pc with
  | findExisting =>
    simp only [Office.advance, at_] at advances
    split at advances
    · obtain rfl := Option.some.inj advances
      exact goes_on at_ rfl rfl (by simp [Pc.rank]) rfl
    · obtain rfl := Option.some.inj advances
      exact goes_on at_ rfl rfl (by simp [Pc.rank]) rfl
  | begin terms =>
    simp only [Office.advance, at_] at advances
    obtain rfl := Option.some.inj advances
    exact goes_on at_ rfl rfl (by simp [Pc.rank]) rfl
  | assertWithinLimits begun =>
    simp only [Office.advance, at_] at advances
    split at advances
    next =>
      obtain rfl := Option.some.inj advances
      exact goes_on at_ rfl rfl (by simp [Pc.rank]) rfl
    next rule active =>
      split at advances
      next error above =>
        obtain rfl := Option.some.inj advances
        refine ⟨_, .quiet rfl (by simp [at_, Pc.rank]) rfl, fun _ => .inl ?_⟩
        simp [leavesRoom, at_, active, above, Except.isOk, Except.toBool]
      next =>
        split_ifs at advances
        · obtain rfl := Option.some.inj advances
          exact goes_on at_ rfl rfl (by simp [Pc.rank]) rfl
        · obtain rfl := Option.some.inj advances
          exact goes_on at_ rfl rfl (by simp [Pc.rank]) rfl
  | lock begun rule =>
    simp only [Office.advance, at_] at advances
    split_ifs at advances
    obtain rfl := Option.some.inj advances
    exact goes_on at_ rfl rfl (by simp [Pc.rank]) rfl
  | usage begun rule =>
    simp only [Office.advance, at_] at advances
    obtain rfl := Option.some.inj advances
    exact goes_on at_ rfl rfl (by simp [Pc.rank]) rfl
  | daily begun rule now =>
    simp only [Office.advance, at_] at advances
    split_ifs at advances with monthly
    · obtain rfl := Option.some.inj advances
      exact goes_on at_ rfl rfl (by simp [Pc.rank]) rfl
    · obtain rfl := Option.some.inj advances
      generalize checks : LimitsService.checkUsage rule _ _ _ = checked
      cases checked with
      | error error =>
        refine ⟨_, .quiet rfl (by simp [at_, Pc.rank]) rfl, fun _ => .inl ?_⟩
        simp [leavesRoom, at_, monthly, checks, Except.isOk, Except.toBool]
      | ok => exact goes_on at_ rfl rfl (by simp [Pc.rank]) rfl
  | monthly begun rule now daily =>
    simp only [Office.advance, at_] at advances
    obtain rfl := Option.some.inj advances
    generalize checks : LimitsService.checkUsage rule _ _ _ = checked
    cases checked with
    | error error =>
      refine ⟨_, .quiet rfl (by simp [at_, Pc.rank]) rfl, fun _ => .inl ?_⟩
      simp [leavesRoom, at_, checks, Except.isOk, Except.toBool]
    | ok => exact goes_on at_ rfl rfl (by simp [Pc.rank]) rfl
  | transition transaction patch =>
    have here : ∃ t p, Pc.transition transaction patch = .transition t p := ⟨_, _, rfl⟩
    simp only [Office.advance, at_] at advances
    split at advances
    · obtain rfl := Option.some.inj advances
      exact ⟨_, .quiet rfl (by simp [at_, Pc.rank]) rfl, fun _ => .inr (.inl here)⟩
    · split_ifs at advances
      · obtain rfl := Option.some.inj advances
        exact goes_on at_ rfl rfl (by simp [Pc.rank]) rfl
      · obtain rfl := Option.some.inj advances
        exact ⟨_, .quiet rfl (by simp [at_, Pc.rank]) rfl, fun _ => .inr (.inl here)⟩
  | commit transaction =>
    simp only [Office.advance, at_] at advances
    obtain rfl := Option.some.inj advances
    exact ⟨_, ⟨rfl, by simp [at_, Pc.rank], .inr rfl⟩, fun thrown => by cases thrown⟩
  | findWinner error =>
    simp only [Office.advance, at_] at advances
    split at advances
    next =>
      obtain rfl := Option.some.inj advances
      exact goes_on at_ rfl rfl (by simp [Pc.rank]) rfl
    next missing =>
      obtain rfl := Option.some.inj advances
      exact ⟨_, .quiet rfl (by simp [at_, Pc.rank]) rfl, fun _ => .inr (.inr ⟨error, rfl, missing⟩)⟩
  | finish transaction =>
    simp only [Office.advance, at_] at advances
    obtain rfl := Option.some.inj advances
    exact goes_on at_ rfl rfl (by simp [Pc.rank]) rfl
  | prepare | create | move | returned | threw | crashed =>
    simp only [Office.advance, at_, reduceCtorEq] at advances

/-- Whoever makes such a request catches the violation of its key. -/
theorem isUniqueViolation_caught (valid : request.Valid) :
    isUniqueViolation (.database (.uniqueViolation (keyConstraint request.owner)))
      (caught request.operation) = true := by
  obtain ⟨-, users⟩ := valid
  cases owner : request.owner <;> cases operation : request.operation <;>
    first | rfl | simp [owner, operation, ownerUserId] at users

theorem create_cases {reference : String} (valid : call.request.Valid)
    (creates : o.create i id reference call = some o') :
    ∃ pc, o.Goes o' i call pc ∧ pc.hasThrown = false := by
  unfold Office.create at creates
  split at creates
  next begun at_ =>
    simp only [Option.ite_none_left_eq_some, isUniqueViolation_caught valid, if_true] at creates
    obtain ⟨-, creates⟩ := creates
    split_ifs at creates
    · obtain rfl := Option.some.inj creates
      exact ⟨_, .quiet rfl (by simp [at_, Pc.rank]) rfl, rfl⟩
    · obtain rfl := Option.some.inj creates
      exact ⟨_, .quiet rfl (by simp [at_, Pc.rank]) rfl, rfl⟩
  next => cases creates

/-- Committed transactions stay, each its owner's and under its key. -/
def Kept (o o' : Office ι) : Prop :=
  ∀ id transaction, o.transactions.rows id = some transaction →
    ∃ current, o'.transactions.rows id = some current ∧
      ∀ owner key, hasKey owner key current = hasKey owner key transaction

theorem Goes.kept (rows : o.Rows) (goes : o.Goes o' i call pc) : o.Kept o' := by
  intro id transaction there
  rcases goes.rows with same | committed
  · exact ⟨transaction, by rw [same, there], fun _ _ => rfl⟩
  · exact ⟨transaction, by rw [committed, rows.view_of_rows there], fun _ _ => rfl⟩

/-- What a step of the call `i` can be, if it makes the call fail. -/
def Fails (setting : Setting) (o : Office ι) (i : ι) (call : Call) (a : Action ι) : Prop :=
  (a = .advance i ∧ (o.leavesRoom setting i call = false ∨
      (∃ transaction patch, call.pc = .transition transaction patch) ∨
      ∃ error, call.pc = .findWinner error ∧ o.findByIdempotencyKey call.request = none)) ∨
    ∃ error, a = .refuse i error

/-- What a step is: nobody's, the first of a call, or one of a call's next. -/
inductive Stepped (setting : Setting) (o o' : Office ι) (a : Action ι) : Prop
  | others (calls : o'.calls = o.calls) (kept : o.Kept o')
  | requested {i : ι} {call : Call} (new : o.calls i = none)
      (calls : o'.calls = Function.update o.calls i (some call)) (kept : o.Kept o')
  | goes {i : ι} {call : Call} {pc : Pc} (here : o.calls i = some call)
      (goes : o.Goes o' i call pc) (fails : pc.hasThrown = true → o.Fails setting i call a)

omit [DecidableEq ι] in
theorem Kept.refl (rows : o'.transactions.rows = o.transactions.rows) : o.Kept o' := by
  intro id transaction there
  exact ⟨transaction, by rw [rows, there], fun _ _ => rfl⟩

theorem Stepped.kept {a : Action ι} (stepped : o.Stepped setting o' a) (rows : o.Rows) :
    o.Kept o' := by
  cases stepped with
  | others _ kept | requested _ _ kept => exact kept
  | goes _ goes _ => exact goes.kept rows

theorem rank_pos (running : pc.isOver = false) : 0 < pc.rank := by
  cases pc <;> simp_all [Pc.rank, Pc.isOver]

theorem Inv.stepped {a : Action ι} (inv : o.Inv setting)
    (stepped : Office.step setting a o = some o') : o.Stepped setting o' a := by
  cases a with
  | tick now =>
    simp only [Office.step, Option.ite_none_right_eq_some] at stepped
    obtain ⟨-, stepped⟩ := stepped
    obtain rfl := Option.some.inj stepped
    exact .others rfl (.refl rfl)
  | settle i id status patch =>
    simp only [Office.step] at stepped
    split at stepped
    · cases stepped
    next current there =>
      simp only [Option.ite_none_right_eq_some] at stepped
      obtain ⟨⟨new, free, allowed⟩, stepped⟩ := stepped
      obtain rfl := Option.some.inj stepped
      refine .others rfl fun l row old => ?_
      rw [RowStore.rows_commit_write (inv.idle i new).transactions]
      by_cases here : l = id
      · subst here
        obtain rfl := Option.some.inj (old.symm.trans there)
        exact ⟨_, Function.update_self .., fun owner key => hasKey_apply owner key patch status row⟩
      · exact ⟨row, (Function.update_of_ne here ..).trans old, fun _ _ => rfl⟩
  | refund i transaction =>
    simp only [Office.step, Option.ite_none_right_eq_some] at stepped
    obtain ⟨⟨new, fresh, -, -, -⟩, stepped⟩ := stepped
    obtain rfl := Option.some.inj stepped
    refine .others rfl fun l row old => ?_
    rw [RowStore.rows_commit_write (inv.idle i new).transactions]
    have apart : l ≠ transaction.id := by
      rintro rfl
      exact fresh (inv.rows.within.of_shows (.inl old))
    exact ⟨row, (Function.update_of_ne apart ..).trans old, fun _ _ => rfl⟩
  | request i request =>
    simp only [Office.step, Option.ite_none_right_eq_some] at stepped
    obtain ⟨⟨new, -⟩, stepped⟩ := stepped
    obtain rfl := Option.some.inj stepped
    exact .requested new rfl (.refl rfl)
  | prepare i terms =>
    obtain ⟨call, here, goes⟩ := Option.bind_eq_some_iff.mp stepped
    split_ifs at goes with at_
    obtain rfl := Option.some.inj goes
    exact .goes here (.quiet rfl (by simp [at_, Pc.rank]) rfl) fun thrown => by cases thrown
  | advance i =>
    obtain ⟨call, here, advances⟩ := Option.bind_eq_some_iff.mp stepped
    obtain ⟨pc, goes, fails⟩ := advance_cases advances
    exact .goes here goes fun thrown => .inl ⟨rfl, fails thrown⟩
  | create i id reference =>
    obtain ⟨call, here, creates⟩ := Option.bind_eq_some_iff.mp stepped
    obtain ⟨pc, goes, quiet⟩ := create_cases (inv.calls i call here).1 creates
    refine .goes here goes fun thrown => ?_
    rw [quiet] at thrown
    cases thrown
  | move i patch =>
    obtain ⟨call, here, goes⟩ := Option.bind_eq_some_iff.mp stepped
    split at goes
    next transaction at_ =>
      split_ifs at goes
      · obtain rfl := Option.some.inj goes
        exact .goes here (.quiet rfl (by simp [at_, Pc.rank]) rfl) fun thrown => by cases thrown
      · obtain rfl := Option.some.inj goes
        exact .goes here (.quiet rfl (by simp [at_, Pc.rank]) rfl) fun thrown => by cases thrown
    next => cases goes
  | refuse i error =>
    obtain ⟨call, here, throws⟩ := Option.bind_eq_some_iff.mp stepped
    split_ifs at throws with ended
    obtain rfl := Option.some.inj throws
    exact .goes here (.quiet rfl (rank_pos (Bool.eq_false_iff.mpr ended)) rfl)
      fun _ => .inr ⟨error, rfl⟩
  | crash i =>
    obtain ⟨call, here, crashes⟩ := Option.bind_eq_some_iff.mp stepped
    split_ifs at crashes with ended
    obtain rfl := Option.some.inj crashes
    exact .goes here (.quiet rfl (rank_pos (Bool.eq_false_iff.mpr ended)) rfl)
      fun thrown => by cases thrown

/-! ## Once the key has a transaction -/

/-- Nobody inserts a transaction under a key that has one. -/
theorem Made.unsettled (rows : o.Rows) (made : o.Made setting i request transaction) :
    ¬ o.Settled request := by
  rintro ⟨id, other, there, named⟩
  have apart : id ≠ transaction.id := by
    rintro rfl
    rw [made.row] at there
    cases there
  have draft : (o.transactions.view i transaction.id).any
      (hasKey request.owner request.idempotencyKey) = true := by
    rw [made.view]
    exact made.key
  have clear := ((rows.keys _ _).drafts i _ made.holder draft id apart).1
  rw [rows.view_of_rows there] at clear
  exact clear named

theorem Inv.unfailing {a : Action ι} (inv : o.Inv setting) (guards : Guards setting a o)
    (here : o.calls i = some call) (settled : o.Settled call.request) :
    ¬ o.Fails setting i call a := by
  have holds := (inv.calls i call here).2
  obtain ⟨existing, found⟩ := settled.found inv.rows
  rintro (⟨rfl, full | ⟨transaction, patch, at_⟩ | ⟨error, -, missing⟩⟩ | ⟨error, rfl⟩)
  · simp [Guards, here, found, full] at guards
  · rw [at_] at holds
    exact Made.unsettled inv.rows holds settled
  · rw [found] at missing
    cases missing
  · have moving : call.pc.movesMoney = true := by simpa [Guards, here, found] using guards
    cases at_ : call.pc with
    | move transaction =>
      rw [at_] at holds
      exact Made.unsettled inv.rows holds settled
    | _ => simp [at_, Pc.movesMoney] at moving

/-- A call that has not failed does not, and each of its own steps is one less to take. -/
theorem Inv.continues {a : Action ι} (inv : o.Inv setting) (guards : Guards setting a o)
    (stepped : Office.step setting a o = some o') (here : o.calls i = some ⟨request, pc⟩)
    (settled : o.Settled request) (unfailed : pc.hasThrown = false) :
    o'.Settled request ∧ ∃ pc', o'.calls i = some ⟨request, pc'⟩ ∧ pc'.hasThrown = false ∧
      (pc' = pc ∨ pc'.rank < pc.rank) := by
  have taken := inv.stepped stepped
  have after : o'.Settled request := by
    obtain ⟨id, transaction, there, named⟩ := settled
    obtain ⟨current, there', same⟩ := taken.kept inv.rows id transaction there
    exact ⟨id, current, there', (same ..).trans named⟩
  refine ⟨after, ?_⟩
  cases taken with
  | others calls kept =>
    exact ⟨pc, by rw [calls, here], unfailed, .inl rfl⟩
  | @requested j call new calls kept =>
    have other : i ≠ j := by
      rintro rfl
      rw [new] at here
      cases here
    refine ⟨pc, ?_, unfailed, .inl rfl⟩
    rw [calls, Function.update_of_ne other, here]
  | @goes j call pc' there goes fails =>
    by_cases same : i = j
    · subst same
      obtain rfl := Option.some.inj (here.symm.trans there)
      refine ⟨pc', by rw [goes.calls, Function.update_self], ?_, .inr goes.rank⟩
      by_contra thrown
      exact inv.unfailing guards here settled (fails (by simpa using thrown))
    · refine ⟨pc, ?_, unfailed, .inl rfl⟩
      rw [goes.calls, Function.update_of_ne same, here]

/-- Under a key that has a transaction, an insert need not wait to be refused. -/
theorem Settled.taken (rows : o.Rows) (settled : o.Settled request) (new : id ∉ o.ids) :
    o.transactions.Taken (hasKey request.owner request.idempotencyKey) o.ids i id := by
  obtain ⟨l, transaction, there, named⟩ := settled
  have known := rows.within.of_shows (.inl there)
  refine ⟨l, known, ?_, ?_, ?_⟩
  · rintro rfl
    exact new known
  · rintro ⟨⟨j, held, -⟩, -⟩
    rw [rows.added j l held] at there
    cases there
  · rw [rows.view_of_rows there]
    exact named

/-- A call can go on, or waits for the advisory lock of another, or the ids have run out. -/
theorem Inv.can_go (inv : o.Inv setting) (here : o.calls i = some call)
    (settled : o.Settled call.request) (running : call.pc.isOver = false) :
    (∃ a o', a.caller = some i ∧ Office.step setting a o = some o') ∨
      (∃ key j, j ≠ i ∧ o.advisory key = some j) ∨ ∀ id, id ∈ o.ids := by
  obtain ⟨valid, holds⟩ := inv.calls i call here
  obtain ⟨existing, found⟩ := settled.found inv.rows
  have advances : (o.advance setting i call).isSome → ∃ a o', a.caller = some i ∧
      Office.step setting a o = some o' := by
    intro goes
    obtain ⟨o', advances⟩ := Option.isSome_iff_exists.mp goes
    exact ⟨.advance i, o', rfl, by rw [Office.step, here, Option.bind_some, advances]⟩
  cases at_ : call.pc with
  | findExisting => exact .inl (advances (by simp [Office.advance, at_, found]))
  | prepare =>
    refine .inl ⟨.prepare i { currency := "NGN" }, o.goto i call (.begin { currency := "NGN" }),
      rfl, ?_⟩
    rw [Office.step, here, Option.bind_some, if_pos at_]
  | begin terms => exact .inl (advances (by simp [Office.advance, at_]))
  | assertWithinLimits begun =>
    refine .inl (advances ?_)
    simp only [Office.advance, at_]
    split
    · rfl
    · split
      · rfl
      · split_ifs <;> rfl
  | lock begun rule =>
    by_cases free : o.advisory (setting.lockKey (limitInput call.request begun)) = none ∨
        o.advisory (setting.lockKey (limitInput call.request begun)) = some i
    · exact .inl (advances (by simp [Office.advance, at_, free]))
    · rw [not_or, ← ne_eq, Option.ne_none_iff_exists'] at free
      obtain ⟨⟨j, held⟩, theirs⟩ := free
      refine .inr (.inl ⟨_, j, ?_, held⟩)
      rintro rfl
      exact theirs held
  | usage begun rule => exact .inl (advances (by simp [Office.advance, at_]))
  | daily begun rule now =>
    refine .inl (advances ?_)
    simp only [Office.advance, at_]
    split_ifs <;> rfl
  | monthly begun rule now daily => exact .inl (advances (by simp [Office.advance, at_]))
  | create begun =>
    by_cases fresh : ∃ id, id ∉ o.ids
    · obtain ⟨id, new⟩ := fresh
      refine .inl ⟨.create i id "", (o.rollback i).goto i call (.findWinner
        (.database (.uniqueViolation (keyConstraint call.request.owner)))), rfl, ?_⟩
      rw [Office.step, here, Option.bind_some, Office.create]
      simp only [at_]
      rw [if_neg new, if_pos (settled.taken inv.rows new), if_pos (isUniqueViolation_caught valid)]
    · exact .inr (.inr (by simpa using fresh))
  | move | transition | commit =>
    rw [at_] at holds
    exact (Made.unsettled inv.rows holds settled).elim
  | findWinner error => exact .inl (advances (by simp [Office.advance, at_, found]))
  | finish transaction => exact .inl (advances (by simp [Office.advance, at_]))
  | returned | threw | crashed => simp [at_, Pc.isOver] at running

/-- How it ends for a request whose key has the transaction `id`: it returns that transaction, unless
it dies; until then it can go on, at most so many times. -/
structure Replays (setting : Setting) (o : Office ι) (i : ι) (request : Request) (id : Uuid)
    (pc : Pc) : Prop where
  here : o.calls i = some ⟨request, pc⟩
  ends : pc.isOver = true → pc = .crashed ∨
    ∃ transaction, pc = .returned transaction ∧ transaction.id = id
  goes : pc.isOver = false → (∃ a o', a.caller = some i ∧ Office.step setting a o = some o') ∨
    (∃ key j, j ≠ i ∧ o.advisory key = some j) ∨ ∀ id, id ∈ o.ids
  steps : ∀ a o', Guards setting a o → Office.step setting a o = some o' →
    ∃ pc', o'.calls i = some ⟨request, pc'⟩ ∧ (pc' = pc ∨ pc'.rank < pc.rank)

theorem Inv.replays (inv : o.Inv setting) (here : o.calls i = some ⟨request, pc⟩)
    (there : o.transactions.rows id = some transaction)
    (named : hasKey request.owner request.idempotencyKey transaction = true)
    (unfailed : pc.hasThrown = false) : o.Replays setting i request id pc := by
  have settled : o.Settled request := ⟨id, transaction, there, named⟩
  refine ⟨here, fun ended => ?_, inv.can_go here settled, fun a o' guards stepped => ?_⟩
  · have holds := (inv.calls i _ here).2
    cases pc with
    | returned answer =>
      obtain ⟨-, -, current, there', named'⟩ := holds
      refine .inr ⟨answer, rfl, (inv.rows.keys request.owner request.idempotencyKey).rows _ _ ?_ ?_⟩
      · rw [there']
        exact named'
      · rw [there]
        exact named
    | crashed => exact .inl rfl
    | threw error => cases unfailed
    | _ => cases ended
  · obtain ⟨-, pc', here', -, less⟩ := inv.continues guards stepped here settled unfailed
    exact ⟨pc', here', less⟩

end Office

/-- As long as every check leaves room for a request whose key has a committed transaction, and
lookups and providers do not refuse it, each request under the key that has not failed before
returns that transaction, the only one. -/
theorem replays_of_room {now : Nat} {winner : Transaction}
    (reaches : Office.Reaches setting (Office.Guards setting) (.start now) o)
    (committed : o.transactions.rows id = some winner)
    (named : hasKey request.owner request.idempotencyKey winner = true)
    (here : o.calls i = some ⟨request, pc⟩) (unfailed : pc.hasThrown = false)
    (later : Office.Reaches setting (Office.Guards setting) o m) :
    (∃ pc', m.Replays setting i request id pc') ∧ ∀ id' other,
      m.transactions.rows id' = some other →
      hasKey request.owner request.idempotencyKey other = true → id' = id := by
  have inv := Office.Reaches.inv reaches
  have runs : m.Inv setting ∧ (∃ current, m.transactions.rows id = some current ∧
      hasKey request.owner request.idempotencyKey current = true) ∧
      ∃ pc', m.calls i = some ⟨request, pc'⟩ ∧ pc'.hasThrown = false := by
    apply Schedule.Reaches.invariant later (fun m => m.Inv setting ∧
      (∃ current, m.transactions.rows id = some current ∧
        hasKey request.owner request.idempotencyKey current = true) ∧
      ∃ pc', m.calls i = some ⟨request, pc'⟩ ∧ pc'.hasThrown = false)
    · rintro a s s' ⟨inv, ⟨current, there, named⟩, pc', here, unfailed⟩ guards stepped
      obtain ⟨-, pc'', here', unfailed', -⟩ :=
        inv.continues guards stepped here ⟨id, current, there, named⟩ unfailed
      obtain ⟨current', there', same⟩ := (inv.stepped stepped).kept inv.rows id current there
      exact ⟨inv.step stepped, ⟨current', there', (same ..).trans named⟩, pc'', here', unfailed'⟩
    · exact ⟨inv, ⟨winner, committed, named⟩, pc, here, unfailed⟩
  obtain ⟨inv, ⟨current, there, named⟩, pc', here, unfailed⟩ := runs
  refine ⟨⟨pc', inv.replays here there named unfailed⟩, fun id' other there' named' => ?_⟩
  apply (inv.rows.keys request.owner request.idempotencyKey).rows
  · rw [there']
    exact named'
  · rw [there]
    exact named

/-- This many transfers a day. -/
def transfersADay (count : Int) : Setting :=
  ⟨[{ twoADay with maxDailyAmount := none, maxDailyCount := some count }], fun _ => 0⟩

/-- Call 1 finds no transaction under its key, and then call 0 commits one. -/
def overtaken : List (Office.Action Nat) :=
  [.request 1 (transferOf 500 "a"), .advance 1] ++ alone 0 (transferOf 500 "a") 10 "trx_a" ++
    [.advance 0]

/-- Call 1 is checked, and goes on. -/
def overtakes : List (Office.Action Nat) :=
  [.advance 0, .prepare 1 { currency := "NGN" }, .advance 1, .advance 1, .advance 1, .advance 1,
    .advance 1]

/-- With room for two transfers a day, both calls return the first. -/
theorem replays_of_room_for_two : ∃ m : Office Nat,
    m.calls 0 = some ⟨transferOf 500 "a", .returned (completed 10 "trx_a" (transferOf 500 "a"))⟩ ∧
      m.calls 1 =
        some ⟨transferOf 500 "a", .returned (completed 10 "trx_a" (transferOf 500 "a"))⟩ ∧
      ∃ pc, m.Replays (transfersADay 2) 1 (transferOf 500 "a") 10 pc := by
  have ran : ((Schedule.run (Office.step (transfersADay 2)) (Office.Guards (transfersADay 2))
      overtaken (.start 0)).bind fun o =>
        (Schedule.run (Office.step (transfersADay 2)) (Office.Guards (transfersADay 2))
          (overtakes ++ [.create 1 11 "trx_b", .advance 1]) o).map fun m : Office Nat => decide
      ((o.transactions.rows 10 = some (completed 10 "trx_a" (transferOf 500 "a")) ∧
          o.calls 1 = some ⟨transferOf 500 "a", .prepare⟩) ∧
        m.calls 0 =
          some ⟨transferOf 500 "a", .returned (completed 10 "trx_a" (transferOf 500 "a"))⟩ ∧
        m.calls 1 =
          some ⟨transferOf 500 "a", .returned (completed 10 "trx_a" (transferOf 500 "a"))⟩)) =
      some true := by
    decide +kernel
  obtain ⟨o, m, reaches, later, seen⟩ := Schedule.reaches_of_runs ran
  obtain ⟨⟨committed, here⟩, first, second⟩ := of_decide_eq_true seen
  have replays := replays_of_room reaches committed (by decide) here rfl later
  exact ⟨m, first, second, replays.1⟩

/-- With one transfer a day, the call that was second is told that it exceeds the limit, which its
own transfer has used up. -/
theorem exceeds_by_itself : ∃ m : Office Nat,
    Office.Reaches (transfersADay 1) Schedule.Any (.start 0) m ∧
      m.ids.filterMap m.transactions.rows = [completed 10 "trx_a" (transferOf 500 "a")] ∧
      m.calls 0 =
        some ⟨transferOf 500 "a", .returned (completed 10 "trx_a" (transferOf 500 "a"))⟩ ∧
      m.calls 1 = some ⟨transferOf 500 "a", .threw (.app
        (limitExceededException "The transfer limit is 1 per 24 hours"))⟩ := by
  have ran : ((Schedule.run (Office.step (transfersADay 1)) Schedule.Any
      (overtaken ++ overtakes) (.start 0)).map fun m : Office Nat => decide
      (m.ids.filterMap m.transactions.rows = [completed 10 "trx_a" (transferOf 500 "a")] ∧
        m.calls 0 =
          some ⟨transferOf 500 "a", .returned (completed 10 "trx_a" (transferOf 500 "a"))⟩ ∧
        m.calls 1 = some ⟨transferOf 500 "a", .threw (.app
          (limitExceededException "The transfer limit is 1 per 24 hours"))⟩)) = some true := by
    decide +kernel
  obtain ⟨m, run, seen⟩ := Option.map_eq_some_iff.mp ran
  exact ⟨m, Schedule.reaches_of_run run, of_decide_eq_true seen⟩

end Finstack.Requests
