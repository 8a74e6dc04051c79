import Finstack.Model.Refunds.Course
import Mathlib.Algebra.BigOperators.Group.List.Basic
import Mathlib.Algebra.Order.Ring.Int
import Mathlib.Tactic.Linarith

/-! # When the shares of refunds add up

Each request takes the difference of two cumulative figures, so the shares that count telescope as
long as every failure gives back the last one. They need not: a failed refund gives back the share
of its own place, and a later request takes that of another.
-/

namespace Finstack.RefundCourse

/-! ## Rounded figures -/

/-- What a refund of the first `amount` of a payment debits in all. -/
def debitUpTo (original : OriginalConversion) (amount : Int) : Int :=
  ceilDiv (original.credited * amount) original.charged

/-- What it reverses of the revenue in all. -/
def revenueUpTo (original : OriginalConversion) (amount : Int) : Int :=
  ((original.gross - original.credited) * amount).tdiv original.charged

/-- A conversion of a positive charge, with a positive credit of at most the gross amount. -/
structure Converts (original : OriginalConversion) : Prop where
  charged : 0 < original.charged
  credited : 0 < original.credited
  spread : original.credited ≤ original.gross

variable {original : OriginalConversion} {currency : String} {course course' : Course}

theorem tdiv_mono {a b c : Int} (positive : 0 < c) (nonneg : 0 ≤ a) (le : a ≤ b) :
    a.tdiv c ≤ b.tdiv c := by
  rw [Int.tdiv_eq_ediv_of_nonneg nonneg, Int.tdiv_eq_ediv_of_nonneg (nonneg.trans le)]
  exact Int.ediv_le_ediv positive le

theorem debitUpTo_mono (converts : Converts original) {a b : Int} (nonneg : 0 ≤ a) (le : a ≤ b) :
    debitUpTo original a ≤ debitUpTo original b := by
  have first := mul_nonneg converts.credited.le nonneg
  have more := mul_le_mul_of_nonneg_left le converts.credited.le
  have positive := converts.charged
  exact tdiv_mono positive (by omega) (by omega)

theorem revenueUpTo_mono (converts : Converts original) {a b : Int} (nonneg : 0 ≤ a) (le : a ≤ b) :
    revenueUpTo original a ≤ revenueUpTo original b := by
  have spread : 0 ≤ original.gross - original.credited := by
    have := converts.spread
    omega
  exact tdiv_mono converts.charged (mul_nonneg spread nonneg) (mul_le_mul_of_nonneg_left le spread)

theorem debitUpTo_charged (converts : Converts original) :
    debitUpTo original original.charged = original.credited := by
  have positive := converts.charged
  have all := mul_nonneg converts.credited.le positive.le
  unfold debitUpTo ceilDiv
  rw [Int.tdiv_eq_ediv_of_nonneg (by omega), add_sub_assoc, add_comm, mul_comm,
    Int.add_mul_ediv_left _ _ (by omega), Int.ediv_eq_zero_of_lt (by omega) (by omega), zero_add]

theorem revenueUpTo_charged (converts : Converts original) :
    revenueUpTo original original.charged = original.gross - original.credited := by
  have positive := converts.charged
  exact Int.mul_tdiv_cancel _ (by omega)

theorem reverseConversion_ok {before amount : Int} {reversal : ConversionReversal}
    (done : reverseConversion original before amount = .ok reversal) :
    0 < amount ∧ 0 ≤ before ∧ before + amount ≤ original.charged ∧
      reversal.walletDebit = debitUpTo original (before + amount) - debitUpTo original before ∧
      reversal.revenueReversal =
        revenueUpTo original (before + amount) - revenueUpTo original before ∧
      reversal.grossReversal = reversal.walletDebit + reversal.revenueReversal := by
  unfold reverseConversion at done
  split_ifs at done with outside
  obtain rfl := Except.ok.inj done
  simp only [not_or, not_le, not_lt] at outside
  exact ⟨outside.1, outside.2.1, outside.2.2, rfl, rfl, rfl⟩

/-! ## Totals -/

variable {which : Share → Bool} {figure : Share → Int} {refunds : List Share}

theorem total_cons (which : Share → Bool) (figure : Share → Int) (share : Share)
    (refunds : List Share) : total which figure (share :: refunds) =
      (if which share then figure share else 0) + total which figure refunds := by
  unfold total
  cases counted : which share <;> simp [counted]

theorem total_append (which : Share → Bool) (figure : Share → Int) (refunds : List Share)
    (share : Share) : total which figure (refunds ++ [share]) =
      total which figure refunds + if which share then figure share else 0 := by
  unfold total
  rw [List.filter_append, List.map_append, List.sum_append]
  cases counted : which share <;> simp [counted]

/-- One refund changes: its own part of a total changes. -/
theorem total_modify {position : Nat} {share : Share} (found : refunds[position]? = some share)
    (change : Share → Share) : total which figure (refunds.modify position change) =
      total which figure refunds - (if which share then figure share else 0) +
        if which (change share) then figure (change share) else 0 := by
  induction refunds generalizing position with
  | nil => simp at found
  | cons first rest ih =>
    cases position with
    | zero =>
      obtain rfl : first = share := by simpa using found
      rw [List.modify_zero_cons, total_cons, total_cons]
      omega
    | succ n =>
      rw [List.modify_succ_cons, total_cons, total_cons, ih (by simpa using found)]
      omega

theorem total_nonneg (nonneg : ∀ share ∈ refunds, 0 ≤ figure share) :
    0 ≤ total which figure refunds := by
  refine List.sum_nonneg fun value member => ?_
  obtain ⟨share, counted, rfl⟩ := List.mem_map.mp member
  exact nonneg share (List.mem_of_mem_filter counted)

def Share.pending (share : Share) : Bool := share.status = .processing

/-- What counts is completed or still pending. -/
theorem total_counts (figure : Share → Int) (refunds : List Share) :
    total Share.counts figure refunds =
      total Share.completed figure refunds + total Share.pending figure refunds := by
  induction refunds with
  | nil => rfl
  | cons share rest ih =>
    rw [total_cons, total_cons, total_cons, ih]
    cases status : share.status <;> simp [Share.counts, Share.completed, Share.pending, status] <;>
      omega

/-! ## What every run preserves -/

/-- What a request has checked of a refund. -/
structure Share.Valid (share : Share) : Prop where
  amount : 0 < share.amount
  debit : 0 ≤ share.walletDebitAmount
  revenue : 0 ≤ share.revenueReversal
  gross : share.grossReversal = share.walletDebitAmount + share.revenueReversal

/-- What counts never exceeds the conversion, and is all of it when the whole charge counts. -/
structure Within (original : OriginalConversion) (refunds : List Share) : Prop where
  valid : ∀ share ∈ refunds, share.Valid
  amount : committedAmount refunds ≤ original.charged
  debit : total Share.counts Share.walletDebitAmount refunds ≤ original.credited
  revenue : total Share.counts Share.revenueReversal refunds ≤ original.gross - original.credited
  full : committedAmount refunds = original.charged →
    total Share.counts Share.walletDebitAmount refunds = original.credited ∧
      total Share.counts Share.revenueReversal refunds = original.gross - original.credited

/-- The shares that count are the share of the first `committedAmount` of the payment. -/
def Telescoped (original : OriginalConversion) (course : Course) : Prop :=
  total Share.counts Share.walletDebitAmount course.refunds =
      debitUpTo original (committedAmount course.refunds) ∧
    total Share.counts Share.revenueReversal course.refunds =
      revenueUpTo original (committedAmount course.refunds)

/-- Refunds are only requested while the shares that count telescope. -/
def Admits (original : OriginalConversion) (course : Course) (operation : Operation) : Prop :=
  ∀ amount, operation = .request amount → Telescoped original course

/-- The completed refunds reverse at most the conversion, and exactly it once all is refunded. -/
structure Exact (original : OriginalConversion) (refunds : List Share) : Prop where
  revenue : total Share.completed Share.revenueReversal refunds ≤ original.gross - original.credited
  debit : total Share.completed Share.walletDebitAmount refunds ≤ original.credited
  full : total Share.completed Share.amount refunds = original.charged →
    total Share.completed Share.walletDebitAmount refunds = original.credited ∧
      total Share.completed Share.revenueReversal refunds = original.gross - original.credited ∧
      total Share.completed Share.grossReversal refunds = original.gross

theorem createWithHold_ok {amount : Option Int}
    (done : createWithHold original currency amount course = .ok course') :
    ∃ value reversal, reverseConversion original (committedAmount course.refunds) value = .ok reversal ∧
      0 < reversal.walletDebit ∧ course' = { course with refunds := course.refunds ++
        [⟨value, reversal.walletDebit, reversal.revenueReversal, reversal.grossReversal,
          .processing⟩] } := by
  unfold createWithHold at done
  dsimp only [bind, Except.bind, pure, Except.pure, throw, throwThe, MonadExceptOf.throw] at done
  split_ifs at done
  cases reverses : reverseConversion original (committedAmount course.refunds)
      (amount.getD (original.charged - committedAmount course.refunds)) with
  | error e =>
    simp only [reverses] at done
    cases done
  | ok reversal =>
    simp only [reverses] at done
    split_ifs at done with debit
    exact ⟨_, reversal, reverses, by omega, (Except.ok.inj done).symm⟩

/-- Only a processing refund is settled. -/
theorem settle_cases (status : TransactionStatus) (position : Nat) (course : Course) :
    settle status position course = course ∨ ∃ share ∈ course.refunds,
      share.status = .processing ∧ ∀ which figure,
        total which figure (settle status position course).refunds =
          total which figure course.refunds - (if which share then figure share else 0) +
            if which { share with status } then figure { share with status } else 0 := by
  cases found : course.refunds[position]? with
  | none =>
    have absent : course.refunds.length ≤ position := List.getElem?_eq_none_iff.mp found
    left
    unfold settle
    rw [List.modify_eq_self absent]
  | some share =>
    by_cases processing : share.status = .processing
    · refine .inr ⟨share, List.mem_of_getElem? found, processing, fun which figure => ?_⟩
      unfold settle
      rw [total_modify found, if_neg (not_not.mpr processing)]
    · left
      unfold settle
      congr 1
      refine List.ext_getElem? fun n => ?_
      rw [List.getElem?_modify]
      split_ifs with here
      · rw [← here, found]
        simp [processing]
      · simp

theorem valid_settle {status : TransactionStatus} {position : Nat}
    (valid : ∀ share ∈ course.refunds, share.Valid) :
    ∀ share ∈ (settle status position course).refunds, share.Valid := by
  intro share member
  obtain ⟨n, found⟩ := List.mem_iff_getElem?.mp member
  unfold settle at found
  rw [List.getElem?_modify] at found
  obtain ⟨old, there, rfl⟩ := Option.map_eq_some_iff.mp found
  obtain ⟨amount, debit, revenue, gross⟩ := valid old (List.mem_of_getElem? there)
  split_ifs <;> exact ⟨amount, debit, revenue, gross⟩

theorem Within.start (converts : Converts original) : Within original [] where
  valid := by simp
  amount := converts.charged.le
  debit := converts.credited.le
  revenue := by
    have := converts.spread
    simp [total]
    omega
  full none := by
    have := converts.charged
    rw [← none] at this
    simp [committedAmount, total] at this

/-- A request whose predecessors telescope. -/
theorem Within.request (converts : Converts original) (within : Within original course.refunds)
    (telescoped : Telescoped original course) {amount : Option Int}
    (done : createWithHold original currency amount course = .ok course') :
    Within original course'.refunds := by
  obtain ⟨value, reversal, reverses, positive, rfl⟩ := createWithHold_ok done
  obtain ⟨some, before, fits, debit, revenue, gross⟩ := reverseConversion_ok reverses
  obtain ⟨debits, revenues⟩ := telescoped
  have after : 0 ≤ committedAmount course.refunds + value := by omega
  have debitMost := debitUpTo_mono converts after fits
  have revenueMost := revenueUpTo_mono converts after fits
  have revenueMore := revenueUpTo_mono converts before
    (show committedAmount course.refunds ≤ committedAmount course.refunds + value by omega)
  rw [debitUpTo_charged converts] at debitMost
  rw [revenueUpTo_charged converts] at revenueMost
  have counted : ∀ figure, total Share.counts figure (course.refunds ++ [⟨value,
      reversal.walletDebit, reversal.revenueReversal, reversal.grossReversal, .processing⟩]) =
      total Share.counts figure course.refunds + figure ⟨value, reversal.walletDebit,
        reversal.revenueReversal, reversal.grossReversal, .processing⟩ :=
    fun figure => total_append _ figure _ _
  refine ⟨fun share member => ?_, ?_, ?_, ?_, fun full => ?_⟩
  · rcases List.mem_append.mp member with old | new
    · exact within.valid share old
    · obtain rfl := List.mem_singleton.mp new
      exact ⟨some, positive.le, by dsimp only; omega, gross⟩
  · exact (counted _).trans_le fits
  · rw [counted]
    dsimp only
    omega
  · rw [counted]
    dsimp only
    omega
  · have all : committedAmount course.refunds + value = original.charged := (counted _).symm.trans full
    rw [all, debitUpTo_charged converts] at debit
    rw [all, revenueUpTo_charged converts] at revenue
    rw [counted, counted]
    dsimp only
    constructor <;> omega

/-- A failure only takes away. -/
theorem Within.fail (within : Within original course.refunds) (position : Nat) :
    Within original (fail position course).refunds := by
  rcases settle_cases .failed position course with same | ⟨share, member, processing, totals⟩
  · rw [RefundCourse.fail, same]
    exact within
  · obtain ⟨amount, debit, revenue, -⟩ := within.valid share member
    have counts : share.counts = true := by simp [Share.counts, processing]
    have less : ∀ figure, total Share.counts figure (RefundCourse.fail position course).refunds =
        total Share.counts figure course.refunds - figure share := by
      intro figure
      rw [RefundCourse.fail, totals, if_pos counts]
      simp [Share.counts]
    have amounts := less Share.amount
    have most := within.amount
    unfold committedAmount at most
    refine ⟨valid_settle within.valid, ?_, ?_, ?_, fun full => ?_⟩
    · exact amounts.trans_le (by omega)
    · rw [less]
      have := within.debit
      omega
    · rw [less]
      have := within.revenue
      omega
    · unfold committedAmount at full
      omega

/-- A completion changes nothing that counts. -/
theorem Within.complete (within : Within original course.refunds) (position : Nat) :
    Within original (complete original position course).refunds := by
  have settled : Within original (settle .successful position course).refunds := by
    rcases settle_cases .successful position course with same | ⟨share, member, processing, totals⟩
    · rw [same]
      exact within
    · have counts : share.counts = true := by simp [Share.counts, processing]
      have same : ∀ figure : Share → Int, (figure { share with status := .successful } = figure share) →
          total Share.counts figure (settle .successful position course).refunds =
            total Share.counts figure course.refunds := by
        intro figure blind
        rw [totals, if_pos counts, if_pos (by simp [Share.counts]), blind]
        omega
      have amounts := same Share.amount rfl
      have debits := same Share.walletDebitAmount rfl
      have revenues := same Share.revenueReversal rfl
      refine ⟨valid_settle within.valid, amounts.trans_le within.amount,
        debits.trans_le within.debit, revenues.trans_le within.revenue, fun full => ?_⟩
      rw [debits, revenues]
      exact within.full (amounts.symm.trans full)
  unfold RefundCourse.complete markPaymentReversedIfFullyRefunded
  split_ifs
  · exact settled
  · exact settled
  · exact within

/-- The completed refunds are among those that count, and all of them once all is refunded. -/
theorem Within.exact (within : Within original refunds) : Exact original refunds := by
  have split := fun figure => total_counts figure refunds
  have nonneg : ∀ figure : Share → Int, (∀ share ∈ refunds, 0 ≤ figure share) →
      0 ≤ total Share.pending figure refunds := fun figure all => total_nonneg all
  have debits := nonneg Share.walletDebitAmount fun share member => (within.valid share member).debit
  have revenues := nonneg Share.revenueReversal fun share member => (within.valid share member).revenue
  have debitsSplit := split Share.walletDebitAmount
  have revenuesSplit := split Share.revenueReversal
  have debit := within.debit
  have revenue := within.revenue
  refine ⟨by omega, by omega, fun full => ?_⟩
  have amountsSplit := split Share.amount
  have most := within.amount
  have pendingAmount := nonneg Share.amount fun share member => (within.valid share member).amount.le
  unfold committedAmount at most
  -- nothing is pending any more
  have none : refunds.filter Share.pending = [] := by
    by_contra some
    obtain ⟨share, rest, list⟩ := List.exists_cons_of_ne_nil some
    have member : share ∈ refunds.filter Share.pending := by rw [list]; exact List.mem_cons_self
    have positive := (within.valid share (List.mem_of_mem_filter member)).amount
    have others : 0 ≤ (rest.map Share.amount).sum := by
      refine List.sum_nonneg fun value there => ?_
      obtain ⟨other, present, rfl⟩ := List.mem_map.mp there
      have inList : other ∈ refunds.filter Share.pending := by
        rw [list]
        exact List.mem_cons_of_mem _ present
      exact (within.valid other (List.mem_of_mem_filter inList)).amount.le
    have sum : total Share.pending Share.amount refunds = share.amount + (rest.map Share.amount).sum := by
      unfold total
      rw [list, List.map_cons, List.sum_cons]
    omega
  have nothing : ∀ figure, total Share.pending figure refunds = 0 := by
    intro figure
    simp [total, none]
  have all : committedAmount refunds = original.charged := by
    have amounts := nothing Share.amount
    unfold committedAmount
    omega
  obtain ⟨exactDebit, exactRevenue⟩ := within.full all
  have noDebits := nothing Share.walletDebitAmount
  have noRevenues := nothing Share.revenueReversal
  have gross : total Share.completed Share.grossReversal refunds =
      total Share.completed Share.walletDebitAmount refunds +
        total Share.completed Share.revenueReversal refunds := by
    unfold total
    rw [← List.sum_map_add]
    refine congrArg List.sum (List.map_congr_left fun share member => ?_)
    exact (within.valid share (List.mem_of_mem_filter member)).gross
  exact ⟨by omega, by omega, by omega⟩

/-! ## Main results -/

/-- In every run that only requests refunds while the shares that count telescope, the completed
refunds never reverse more than the conversion, and exactly it once all is refunded. -/
theorem shares_exact_of_telescoped (converts : Converts original)
    (reached : Reaches original currency (Admits original) course) :
    Exact original course.refunds := by
  have within : Within original course.refunds := by
    induction reached with
    | start => exact .start converts
    | step _ operation admits done ih =>
      cases operation with
      | request amount => exact ih.request converts (admits amount rfl) done
      | fail position =>
        obtain rfl := Except.ok.inj done
        exact ih.fail position
      | complete position =>
        obtain rfl := Except.ok.inj done
        exact ih.complete position
  exact within.exact

/-- Several operations, none of them refused. -/
theorem Reaches.many (operations : List Operation)
    (reached : Reaches original currency (fun _ _ => True) course)
    (done : operations.foldlM (run original currency) course = .ok course') :
    Reaches original currency (fun _ _ => True) course' := by
  induction operations generalizing course with
  | nil =>
    obtain rfl := Except.ok.inj done
    exact reached
  | cons operation rest ih =>
    cases first : run original currency course operation with
    | error e =>
      rw [List.foldlM_cons, first] at done
      cases done
    | ok between =>
      rw [List.foldlM_cons, first] at done
      exact ih (reached.step operation trivial first) done

/-- Two refunds of a converted payment: one of four units, then one of all that remains. -/
theorem shares_exact_after_two : ∃ course,
    Reaches ⟨10, 7, 8⟩ "NGN" (Admits ⟨10, 7, 8⟩) course ∧
      total Share.completed Share.amount course.refunds = 10 ∧ Exact ⟨10, 7, 8⟩ course.refunds := by
  have converts : Converts ⟨10, 7, 8⟩ := ⟨by decide, by decide, by decide⟩
  have reached : Reaches ⟨10, 7, 8⟩ "NGN" (Admits ⟨10, 7, 8⟩)
      ⟨.reversed, [⟨4, 3, 0, 3, .successful⟩, ⟨6, 4, 1, 5, .successful⟩]⟩ :=
    .step (.step (.step (.step .start (.request (some 4)) (fun _ _ => ⟨rfl, rfl⟩) rfl)
      (.request none) (fun _ _ => ⟨rfl, rfl⟩) rfl) (.complete 0) nofun rfl) (.complete 1) nofun rfl
  exact ⟨_, reached, by decide, shares_exact_of_telescoped converts reached⟩

/-- Refunds that fail out of order, and later requests in their place. -/
def outOfOrder : List Operation :=
  [.request (some 1), .request (some 1), .request (some 1), .request (some 2), .request (some 1),
    .fail 3, .request (some 1), .request (some 1), .request (some 2), .request (some 1), .fail 7,
    .request (some 1), .complete 0, .complete 1, .complete 2, .complete 4, .complete 5, .complete 6,
    .complete 8, .complete 9]

/-- Eight refunds of one unit each debit the wallet by one unit, of seven that were credited. -/
theorem shares_exceed_conversion : ¬ ∀ (original : OriginalConversion) (currency : String)
    (course : Course), Converts original → Reaches original currency (fun _ _ => True) course →
      Exact original course.refunds := by
  intro exact
  have done : ∃ course, outOfOrder.foldlM (run ⟨10, 7, 8⟩ "NGN") .start = .ok course ∧
      total Share.completed Share.walletDebitAmount course.refunds = 8 :=
    ⟨_, rfl, by decide⟩
  obtain ⟨course, runs, debits⟩ := done
  have reached := Reaches.many outOfOrder .start runs
  have within := (exact ⟨10, 7, 8⟩ "NGN" course ⟨by decide, by decide, by decide⟩ reached).debit
  rw [debits] at within
  exact absurd within (by decide)

end Finstack.RefundCourse
