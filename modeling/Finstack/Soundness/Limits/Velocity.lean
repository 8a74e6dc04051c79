import Finstack.Soundness.Limits.Requests

/-! # Limits hold at every commit

Whoever commits has been checked under the lock of its limit, and nobody has added to what counts
since. So with its own transaction the owner is within the limit.
-/

namespace Finstack.Requests

open Foundation

variable {ι : Type} [DecidableEq ι] {setting : Setting} {o o' : Office ι} {i : ι} {call : Call}
  {request : Request} {transaction : Transaction} {rule : LimitRule} {f : Transaction → Int}

/-- The committed transactions that count for the input since then, this one included. -/
def Office.moved (o : Office ι) (input : LimitInput) (since : Nat) (self : Uuid) :
    List Transaction :=
  (o.ids.filterMap o.transactions.rows).filter fun transaction =>
    countsFor input since transaction || transaction.id = self

/-- What the rule allows to have been moved, with this transaction, in the windows before `now`. -/
structure Office.Within (o : Office ι) (rule : LimitRule) (input : LimitInput) (self : Uuid)
    (now : Nat) : Prop where
  count : ∀ limit ∈ rule.maxDailyCount,
    (o.moved input (now - LimitsService.DAY_MS) self).length ≤ limit
  daily : ∀ limit ∈ rule.maxDailyAmount,
    ((o.moved input (now - LimitsService.DAY_MS) self).map (·.amount)).sum ≤ limit
  monthly : ∀ limit ∈ rule.maxMonthlyAmount,
    ((o.moved input (now - LimitsService.MONTH_MS) self).map (·.amount)).sum ≤ limit

namespace Office

/-- The commit adds its own transaction to what counts, and nothing else. -/
theorem Made.total_le (rows : o.Rows) (made : o.Made setting i request transaction)
    (input : LimitInput) (since : Nat) (nonneg : 0 ≤ f transaction) :
    total (fun row => countsFor input since row || row.id = transaction.id) f
      (o.commit i).transactions.rows o.ids ≤
        total (countsFor input since) f o.transactions.rows o.ids + f transaction := by
  apply total_le_add rows.nodup nonneg
  · have self : (o.commit i).transactions.rows transaction.id = some transaction := made.view
    rw [self, made.row, worth_of_pos (by simp), worth_none]
    omega
  · intro l _ other
    have unheld : o.transactions.holder l ≠ some i := fun mine => other (made.only l mine)
    have same : (o.commit i).transactions.rows l = o.transactions.rows l :=
      RowStore.view_of_not_held unheld
    rw [same]
    cases row : o.transactions.rows l with
    | none => rfl
    | some current =>
      have apart : current.id ≠ transaction.id := by
        rw [rows.named l current (.inl row)]
        exact other
      apply le_of_eq
      simp [worth, apart]

theorem Made.within {input : LimitInput} {checkedAt : Nat} (rows : o.Rows)
    (made : o.Made setting i request transaction) (amount : input.amount = transaction.amount)
    (fits : o.Fits rule input checkedAt) :
    (o.commit i).Within rule input transaction.id checkedAt := by
  have positive := rows.positive _ _ (RowStore.shows_of_view made.view)
  have amounts : ∀ since, (((o.commit i).moved input since transaction.id).map (·.amount)).sum ≤
      (o.used input since).amount + transaction.amount := by
    intro since
    rw [moved, sum_filterMap, used_amount]
    exact made.total_le rows input since positive.le
  constructor
  · intro limit set
    have counted := made.total_le (f := fun _ => 1) rows input (checkedAt - LimitsService.DAY_MS)
      (by omega)
    rw [← used_count, ← sum_filterMap] at counted
    have length : ((o.commit i).moved input (checkedAt - LimitsService.DAY_MS)
        transaction.id).length ≤ (o.used input (checkedAt - LimitsService.DAY_MS)).count + 1 := by
      simpa [moved, Office.commit] using counted
    have := fits.count limit set
    omega
  · intro limit set
    have := fits.daily limit set
    have := amounts (checkedAt - LimitsService.DAY_MS)
    omega
  · intro limit set
    have := fits.monthly limit set
    have := amounts (checkedAt - LimitsService.MONTH_MS)
    omega

end Office

/-- Right after a payment, payout or transfer has committed, what its owner has moved is within the
limits of the active rule, in the windows before the instant of its check. -/
theorem limits_hold {Admits : Office.Action ι → Office ι → Prop} {now : Nat}
    (reaches : Office.Reaches setting Admits (.start now) o) (here : o.calls i = some call)
    (at_ : call.pc = .commit transaction)
    (stepped : Office.step setting (.advance i) o = some o')
    (active : setting.activeRule ⟨call.request.owner, call.request.operation,
      transaction.currency, transaction.amount⟩ = some rule) :
    o'.transactions.rows transaction.id = some transaction ∧
    (∀ limit ∈ rule.maxPerTransaction, transaction.amount ≤ limit) ∧
    (LimitsService.readsUsage rule = true → ∃ checkedAt, o.checkedAt i = some checkedAt ∧
      o'.Within rule ⟨call.request.owner, call.request.operation, transaction.currency,
        transaction.amount⟩ transaction.id checkedAt) := by
  have inv := Office.Reaches.inv reaches
  have made : o.Made setting i call.request transaction := by
    have holds := (inv.calls i call here).2
    rw [at_] at holds
    exact holds
  simp only [Office.step, here, Option.bind_some, Office.advance, at_] at stepped
  obtain rfl := Option.some.inj stepped
  have cleared := made.cleared
  rw [← made.amount] at cleared
  obtain ⟨within, reads⟩ := cleared rule active
  refine ⟨made.view, LimitsService.checkTransaction_ok_iff.mp within, fun uses => ?_⟩
  obtain ⟨-, checkedAt, checked, fits⟩ := reads uses
  obtain ⟨count, daily, monthly⟩ := made.within inv.rows rfl fits
  exact ⟨checkedAt, checked, count, daily, monthly⟩

/-- Two transfers a day, of 1 000 naira together. -/
def twoADay : LimitRule :=
  { id := 1
    operation := .transfer
    currency := "NGN"
    organizationId := none
    maxPerTransaction := none
    maxDailyAmount := some 100000
    maxDailyCount := some 2
    maxMonthlyAmount := none }

def twoTransfers : Setting := ⟨[twoADay], fun _ => 0⟩

/-- User 1 transfers this much. -/
def transferOf (amount : Int) (key : String) : Request := ⟨.user 1, .transfer, amount, key⟩

/-- The call runs to its commit on its own. -/
def alone (i : Nat) (request : Request) (id : Uuid) (reference : String) :
    List (Office.Action Nat) :=
  [.request i request, .advance i, .prepare i { currency := "NGN" }, .advance i, .advance i,
    .advance i, .advance i, .advance i, .create i id reference,
    .move i { ledgerTransactionId := some 9, completedAt := some 0 }, .advance i]

/-- The transfer, once it is complete. -/
def completed (id : Uuid) (reference : String) (request : Request) : Transaction :=
  { newTransaction id reference request ⟨{ currency := "NGN" }, 0⟩ with
    status := .successful
    ledgerTransactionId := some 9
    completedAt := some 0 }

/-- Two transfers of 500 naira reach the limit. -/
theorem limits_hold_twice : ∃ o o' : Office Nat,
    Office.step twoTransfers (.advance 1) o = some o' ∧
      o'.transactions.rows 11 = some (completed 11 "trx_b" (transferOf 50000 "b")) ∧
      o'.Within twoADay ⟨.user 1, .transfer, "NGN", 50000⟩ 11 0 := by
  have ran : ((Schedule.run (Office.step twoTransfers) Schedule.Any
      (alone 0 (transferOf 50000 "a") 10 "trx_a" ++ [.advance 0] ++
        alone 1 (transferOf 50000 "b") 11 "trx_b") (.start 0)).map fun o : Office Nat => decide
      (o.calls 1 = some ⟨transferOf 50000 "b",
          .commit (completed 11 "trx_b" (transferOf 50000 "b"))⟩ ∧
        o.checkedAt 1 = some 0)) = some true := by
    decide +kernel
  obtain ⟨o, run, seen⟩ := Option.map_eq_some_iff.mp ran
  obtain ⟨here, checked⟩ := of_decide_eq_true seen
  have reaches : Office.Reaches twoTransfers Schedule.Any (.start 0) o :=
    Schedule.reaches_of_run run
  have stepped : Office.step twoTransfers (.advance 1) o =
      some ((o.commit 1).goto 1 ⟨transferOf 50000 "b", .commit
        (completed 11 "trx_b" (transferOf 50000 "b"))⟩ (.finish
          (completed 11 "trx_b" (transferOf 50000 "b")))) := by
    simp only [Office.step, here, Option.bind_some, Office.advance]
  have active : twoTransfers.activeRule ⟨.user 1, .transfer, "NGN", 50000⟩ = some twoADay := by
    decide
  obtain ⟨row, -, within⟩ := limits_hold reaches here rfl stepped active
  obtain ⟨checkedAt, checked', holds⟩ := within (by decide)
  obtain rfl := Option.some.inj (checked.symm.trans checked')
  exact ⟨o, _, stepped, row, holds⟩

end Finstack.Requests
