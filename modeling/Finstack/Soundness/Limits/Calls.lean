import Finstack.Foundation.RowTotal
import Finstack.Model.Limits.Requests

/-! # What a request knows

What each call knows of the limits that it has been checked against and of the row that it has
inserted, and what a step of somebody else leaves of it: nobody adds to what counts against a limit
while another call holds its lock.
-/

namespace Finstack.Requests

open Foundation

variable {ι : Type} [DecidableEq ι] {setting : Setting} {o o' o'' : Office ι} {i j : ι}
  {call : Call} {request : Request} {input : LimitInput} {transaction : Transaction} {id : Uuid}

/-! ## What counts -/

/-- The transaction counts against the limits for this input. -/
def countsFor (input : LimitInput) (since : Nat) : Transaction → Bool :=
  TransactionsService.counts input.owner (LimitsService.TRANSACTION_TYPES input.operation)
    input.currency since

/-- What the committed transactions count. -/
def Office.used (o : Office ι) (input : LimitInput) (since : Nat) : Usage :=
  TransactionsService.usageWithin (o.ids.filterMap o.transactions.rows) input.owner
    (LimitsService.TRANSACTION_TYPES input.operation) input.currency since

omit [DecidableEq ι] in
theorem Office.used_amount (o : Office ι) (input : LimitInput) (since : Nat) :
    (o.used input since).amount =
      total (countsFor input since) (·.amount) o.transactions.rows o.ids :=
  sum_filterMap o.ids

omit [DecidableEq ι] in
theorem Office.used_count (o : Office ι) (input : LimitInput) (since : Nat) :
    (o.used input since).count =
      total (countsFor input since) (fun _ => 1) o.transactions.rows o.ids := by
  rw [← sum_filterMap o.ids]
  simp [used, TransactionsService.usageWithin, countsFor]

/-- The limits of the rule leave room for the input, in the windows before this instant. -/
structure Office.Fits (o : Office ι) (rule : LimitRule) (input : LimitInput) (checkedAt : Nat) :
    Prop where
  count : ∀ limit ∈ rule.maxDailyCount,
    (o.used input (checkedAt - LimitsService.DAY_MS)).count + 1 ≤ limit
  daily : ∀ limit ∈ rule.maxDailyAmount,
    (o.used input (checkedAt - LimitsService.DAY_MS)).amount + input.amount ≤ limit
  monthly : ∀ limit ∈ rule.maxMonthlyAmount,
    (o.used input (checkedAt - LimitsService.MONTH_MS)).amount + input.amount ≤ limit

namespace Office

/-- No more counts than before. -/
structure Less (o o' : Office ι) (input : LimitInput) : Prop where
  amount : ∀ since, (o'.used input since).amount ≤ (o.used input since).amount
  count : ∀ since, (o'.used input since).count ≤ (o.used input since).count

omit [DecidableEq ι] in
theorem Less.trans (first : o.Less o' input) (second : o'.Less o'' input) : o.Less o'' input where
  amount since := (second.amount since).trans (first.amount since)
  count since := (second.count since).trans (first.count since)

omit [DecidableEq ι] in
/-- The rows count no more, one by one. -/
theorem Less.of_rows (ids : o'.ids = o.ids)
    (counts : ∀ since id new, o'.transactions.rows id = some new → countsFor input since new = true →
      ∃ old, o.transactions.rows id = some old ∧ countsFor input since old = true ∧
        new.amount = old.amount)
    (positive : ∀ id old, o.transactions.rows id = some old → 0 < old.amount) :
    o.Less o' input := by
  have worth_le : ∀ (f : Transaction → Int) since id,
      (∀ old, o.transactions.rows id = some old → 0 ≤ f old) →
      (∀ old new, new.amount = old.amount → f new = f old) →
      worth (countsFor input since) f (o'.transactions.rows id) ≤
        worth (countsFor input since) f (o.transactions.rows id) := by
    intro f since id nonneg same
    have floor : 0 ≤ worth (countsFor input since) f (o.transactions.rows id) := by
      cases row : o.transactions.rows id with
      | none => simp
      | some old =>
        have := nonneg old row
        cases counted : countsFor input since old with
        | false => rw [worth_of_neg counted]
        | true => rwa [worth_of_pos counted]
    cases row : o'.transactions.rows id with
    | none => exact floor
    | some new =>
      cases counted : countsFor input since new with
      | false => rwa [worth_of_neg counted]
      | true =>
        obtain ⟨old, there, counted', amount⟩ := counts since id new row counted
        rw [worth_of_pos counted, there, worth_of_pos counted', same old new amount]
  constructor
  · intro since
    rw [used_amount, used_amount, ids]
    apply total_mono
    intro id _
    apply worth_le
    · exact fun old there => (positive id old there).le
    · exact fun old new same => same
  · intro since
    rw [used_count, used_count, ids]
    apply total_mono
    intro id _
    apply worth_le
    · exact fun _ _ => by omega
    · exact fun _ _ _ => rfl

omit [DecidableEq ι] in
theorem Fits.less {rule : LimitRule} {checkedAt : Nat} (fits : o.Fits rule input checkedAt)
    (less : o.Less o' input) : o'.Fits rule input checkedAt where
  count limit set := by
    have := fits.count limit set
    have := less.count (checkedAt - LimitsService.DAY_MS)
    omega
  daily limit set := by
    have := fits.daily limit set
    have := less.amount (checkedAt - LimitsService.DAY_MS)
    omega
  monthly limit set := by
    have := fits.monthly limit set
    have := less.amount (checkedAt - LimitsService.MONTH_MS)
    omega

/-! ## What a call knows -/

/-- The call is within the limits, and holds their lock if others could use them up. -/
def Cleared (setting : Setting) (o : Office ι) (i : ι) (input : LimitInput) : Prop :=
  ∀ rule, setting.activeRule input = some rule →
    LimitsService.checkTransaction rule input = .ok () ∧
    (LimitsService.readsUsage rule = true → o.advisory (setting.lockKey input) = some i ∧
      ∃ checkedAt, o.checkedAt i = some checkedAt ∧ o.Fits rule input checkedAt)

/-- The call has inserted its transaction, and nothing else. -/
structure Made (setting : Setting) (o : Office ι) (i : ι) (request : Request)
    (transaction : Transaction) : Prop where
  holder : o.transactions.holder transaction.id = some i
  row : o.transactions.rows transaction.id = none
  view : o.transactions.view i transaction.id = some transaction
  only : ∀ id, o.transactions.holder id = some i → id = transaction.id
  key : hasKey request.owner request.idempotencyKey transaction = true
  type : transaction.type = LimitsService.TRANSACTION_TYPES request.operation
  amount : transaction.amount = request.amount
  cleared : o.Cleared setting i
    ⟨request.owner, request.operation, transaction.currency, request.amount⟩

structure Idle (o : Office ι) (i : ι) : Prop where
  transactions : ∀ id, o.transactions.holder id ≠ some i
  advisory : ∀ key, o.advisory key ≠ some i

/-- The request's key has a committed transaction. -/
def Settled (o : Office ι) (request : Request) : Prop :=
  ∃ id transaction, o.transactions.rows id = some transaction ∧
    hasKey request.owner request.idempotencyKey transaction = true

/-- The call holds the lock of a rule that is active. -/
structure Locks (setting : Setting) (o : Office ι) (i : ι) (input : LimitInput)
    (rule : LimitRule) : Prop where
  transactions : ∀ id, o.transactions.holder id ≠ some i
  active : setting.activeRule input = some rule
  within : LimitsService.checkTransaction rule input = .ok ()
  reads : LimitsService.readsUsage rule = true
  holder : o.advisory (setting.lockKey input) = some i

def Holds (setting : Setting) (o : Office ι) (i : ι) (request : Request) : Pc → Prop
  | .findExisting | .prepare | .begin _ | .assertWithinLimits _ | .threw _ | .crashed => o.Idle i
  | .lock begun rule => o.Idle i ∧ setting.activeRule (limitInput request begun) = some rule ∧
    LimitsService.checkTransaction rule (limitInput request begun) = .ok () ∧
    LimitsService.readsUsage rule = true
  | .usage begun rule => o.Locks setting i (limitInput request begun) rule
  | .daily begun rule now => o.Locks setting i (limitInput request begun) rule ∧
    o.checkedAt i = some now
  | .monthly begun rule now daily => o.Locks setting i (limitInput request begun) rule ∧
    o.checkedAt i = some now ∧
    (o.used (limitInput request begun) (now - LimitsService.DAY_MS)).amount ≤ daily.amount ∧
    (o.used (limitInput request begun) (now - LimitsService.DAY_MS)).count ≤ daily.count
  | .create begun => (∀ id, o.transactions.holder id ≠ some i) ∧
    o.Cleared setting i (limitInput request begun)
  | .move transaction | .transition transaction _ | .commit transaction =>
    o.Made setting i request transaction
  | .findWinner _ => o.Idle i ∧ o.Settled request
  | .finish transaction | .returned transaction => o.Idle i ∧
    hasKey request.owner request.idempotencyKey transaction = true ∧
    ∃ current, o.transactions.rows transaction.id = some current ∧
      hasKey request.owner request.idempotencyKey current = true

/-! ## What holds in every state -/

/-- What the constraints and the code keep of the transactions. -/
structure Rows (o : Office ι) : Prop where
  keys : ∀ owner key, o.transactions.OneOf (hasKey owner key)
  within : o.transactions.Within o.ids
  nodup : o.ids.Nodup
  named : ∀ id transaction, o.transactions.Shows id transaction → transaction.id = id
  positive : ∀ id transaction, o.transactions.Shows id transaction → 0 < transaction.amount
  /-- Calls lock only rows that they have inserted. -/
  added : ∀ i id, o.transactions.holder id = some i → o.transactions.rows id = none

structure Inv (setting : Setting) (o : Office ι) : Prop where
  rows : o.Rows
  idle : ∀ i, o.calls i = none → o.Idle i
  calls : ∀ i call, o.calls i = some call →
    call.request.Valid ∧ o.Holds setting i call.request call.pc

/-- What a step of somebody else leaves to the call `j`. -/
structure Frame (setting : Setting) (o o' : Office ι) (j : ι) : Prop where
  transactions : o.transactions.Keeps o'.transactions j
  advisory : ∀ key, o'.advisory key = some j ↔ o.advisory key = some j
  checkedAt : o'.checkedAt j = o.checkedAt j
  /-- A committed transaction stays its owner's, under its key. -/
  kept : ∀ id transaction, o.transactions.rows id = some transaction →
    ∃ current, o'.transactions.rows id = some current ∧
      ∀ owner key, hasKey owner key current = hasKey owner key transaction
  /-- Whoever has the lock of a limit is the only one to add to what counts against it. -/
  used : ∀ input rule, setting.activeRule input = some rule →
    LimitsService.readsUsage rule = true → o.advisory (setting.lockKey input) = some j →
    o.Less o' input

theorem Frame.idle (frame : o.Frame setting o' j) (idle : o.Idle j) : o'.Idle j where
  transactions id held := idle.transactions id ((frame.transactions id).1.mp held)
  advisory key held := idle.advisory key ((frame.advisory key).mp held)

theorem Frame.settled (frame : o.Frame setting o' j) (settled : o.Settled request) :
    o'.Settled request := by
  obtain ⟨id, transaction, there, named⟩ := settled
  obtain ⟨current, there', same⟩ := frame.kept id transaction there
  exact ⟨id, current, there', (same ..).trans named⟩

omit [DecidableEq ι] in
/-- A call stays within the limits while no more counts. -/
theorem Cleared.less (cleared : o.Cleared setting i input)
    (advisory : ∀ key, o.advisory key = some i → o'.advisory key = some i)
    (checkedAt : o'.checkedAt i = o.checkedAt i)
    (less : ∀ rule, setting.activeRule input = some rule → LimitsService.readsUsage rule = true →
      o.advisory (setting.lockKey input) = some i → o.Less o' input) :
    o'.Cleared setting i input := by
  intro rule active
  obtain ⟨within, reads⟩ := cleared rule active
  refine ⟨within, fun uses => ?_⟩
  obtain ⟨holder, at_, checked, fits⟩ := reads uses
  exact ⟨advisory _ holder, at_, checkedAt.trans checked, fits.less (less rule active uses holder)⟩

theorem Frame.cleared (frame : o.Frame setting o' j) (cleared : o.Cleared setting j input) :
    o'.Cleared setting j input :=
  cleared.less (fun key => (frame.advisory key).mpr) frame.checkedAt (frame.used input)

theorem Frame.locks {rule : LimitRule} (frame : o.Frame setting o' j)
    (locks : o.Locks setting j input rule) : o'.Locks setting j input rule where
  transactions id held := locks.transactions id ((frame.transactions id).1.mp held)
  active := locks.active
  within := locks.within
  reads := locks.reads
  holder := (frame.advisory _).mpr locks.holder

theorem Frame.made (frame : o.Frame setting o' j) (made : o.Made setting j request transaction) :
    o'.Made setting j request transaction where
  holder := (frame.transactions _).1.mpr made.holder
  row := ((frame.transactions _).2 made.holder).1.trans made.row
  view := ((frame.transactions _).2 made.holder).2.trans made.view
  only id held := made.only id ((frame.transactions id).1.mp held)
  key := made.key
  type := made.type
  amount := made.amount
  cleared := frame.cleared made.cleared

theorem Holds.frame {pc : Pc} (frame : o.Frame setting o' j)
    (holds : o.Holds setting j request pc) : o'.Holds setting j request pc := by
  cases pc with
  | findExisting | prepare | begin | assertWithinLimits | threw | crashed =>
    exact frame.idle holds
  | lock begun rule => exact ⟨frame.idle holds.1, holds.2⟩
  | usage begun rule => exact frame.locks holds
  | daily begun rule now => exact ⟨frame.locks holds.1, frame.checkedAt.trans holds.2⟩
  | monthly begun rule now daily =>
    obtain ⟨locks, checked, amount, count⟩ := holds
    have less := frame.used _ rule locks.active locks.reads locks.holder
    exact ⟨frame.locks locks, frame.checkedAt.trans checked, (less.amount _).trans amount,
      (less.count _).trans count⟩
  | create begun =>
    exact ⟨fun id held => holds.1 id ((frame.transactions id).1.mp held), frame.cleared holds.2⟩
  | move | transition | commit => exact frame.made holds
  | findWinner => exact ⟨frame.idle holds.1, frame.settled holds.2⟩
  | finish | returned =>
    obtain ⟨idle, key, current, there, key'⟩ := holds
    obtain ⟨current', there', same⟩ := frame.kept _ _ there
    exact ⟨frame.idle idle, key, current', there', (same ..).trans key'⟩

theorem Frame.trans (first : o.Frame setting o' j) (second : o'.Frame setting o'' j) :
    o.Frame setting o'' j where
  transactions := first.transactions.trans second.transactions
  advisory key := (second.advisory key).trans (first.advisory key)
  checkedAt := second.checkedAt.trans first.checkedAt
  kept id transaction there := by
    obtain ⟨current, there', same⟩ := first.kept id transaction there
    obtain ⟨current', there'', same'⟩ := second.kept id current there'
    exact ⟨current', there'', fun owner key => (same' owner key).trans (same owner key)⟩
  used input rule active reads held :=
    (first.used input rule active reads held).trans
      (second.used input rule active reads ((first.advisory _).mpr held))

omit [DecidableEq ι] in
theorem Less.refl (rows : o'.transactions.rows = o.transactions.rows) (ids : o'.ids = o.ids) :
    o.Less o' input := by
  constructor
  · intro since
    simp only [used, rows, ids, le_refl]
  · intro since
    simp only [used, rows, ids, le_refl]

end Office

end Finstack.Requests
