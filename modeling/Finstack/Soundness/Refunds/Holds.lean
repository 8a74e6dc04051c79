import Finstack.Foundation.KeyedFold
import Finstack.Foundation.Rounding
import Finstack.Model.Refunds.Requests
import Finstack.Soundness.Refunds.Shares

/-! # Which refunds can be held

A refund debits the wallet by the difference of two figures that are rounded up. Where both round to
the same figure nothing is debited, and the hold of a refund that takes nothing is refused.
`placesHold_iff` says which refunds are held.
-/

namespace Finstack.RefundRequests

open Foundation LedgerService RefundCourse

/-! ## Rounding up -/

theorem ceilDiv_le_iff {a c k : Int} (positive : 0 < c) (nonneg : 0 ≤ a) :
    ceilDiv a c ≤ k ↔ a ≤ k * c :=
  Foundation.add_sub_one_tdiv_le_iff positive nonneg

/-- Two figures round up to different ones when a multiple of the divisor lies between them. -/
theorem ceilDiv_lt_iff {a b c : Int} (positive : 0 < c) (nonneg : 0 ≤ a) (le : a ≤ b) :
    ceilDiv a c < ceilDiv b c ↔ ∃ k, a ≤ k * c ∧ k * c < b := by
  constructor
  · intro less
    refine ⟨ceilDiv a c, (ceilDiv_le_iff positive nonneg).mp le_rfl, ?_⟩
    by_contra above
    have := (ceilDiv_le_iff positive (nonneg.trans le)).mpr (not_lt.mp above)
    omega
  · rintro ⟨k, below, above⟩
    have low := (ceilDiv_le_iff positive nonneg).mpr below
    have high := (ceilDiv_le_iff (k := k) positive (nonneg.trans le)).not.mpr (not_le.mpr above)
    omega

/-! ## The wallet debit -/

/-- A refund of `amount` after `before` takes something from the wallet: without a conversion any,
with one where the refunded part of the credit passes a whole unit. -/
def TakesSomething (credited : CreditedPayment) (before amount : Int) : Prop :=
  ∀ quote ∈ credited.quote, ∃ units : Int,
    quote.targetAmount * before ≤ units * quote.sourceAmount ∧
      units * quote.sourceAmount < quote.targetAmount * (before + amount)

/-- What a refund of `amount` after `before` takes from the wallet. -/
def walletDebit (credited : CreditedPayment) (before amount : Int) : Int :=
  match credited.quote with
  | none => amount
  | some quote =>
    ceilDiv (quote.targetAmount * (before + amount)) quote.sourceAmount -
      ceilDiv (quote.targetAmount * before) quote.sourceAmount

theorem reversal_ok {credited : CreditedPayment} {before amount : Int} (positive : 0 < amount)
    (nonneg : 0 ≤ before) (within : before + amount ≤ credited.payment.amount) :
    ∃ share, reversal credited before amount = .ok share ∧
      share.walletDebit = walletDebit credited before amount ∧ 0 ≤ share.revenueReversal ∧
        share.grossReversal = share.walletDebit + share.revenueReversal := by
  unfold reversal walletDebit
  cases quoted : credited.quote with
  | none => exact ⟨_, rfl, rfl, le_rfl, (add_zero amount).symm⟩
  | some quote =>
    have charged := credited.charged quote quoted
    obtain ⟨source, target⟩ := credited.positive quote quoted
    have converts : Converts ⟨quote.sourceAmount, quote.targetAmount, quote.grossTargetAmount⟩ :=
      ⟨source, target, credited.within quote quoted⟩
    have mono := revenueUpTo_mono converts nonneg (by omega : before ≤ before + amount)
    have inside : ¬ (amount ≤ 0 ∨ before < 0 ∨ before + amount > quote.sourceAmount) := by omega
    dsimp only
    unfold reverseConversion
    rw [if_neg inside]
    exact ⟨_, rfl, rfl, sub_nonneg.mpr mono, rfl⟩

theorem walletDebit_pos_iff {credited : CreditedPayment} {before amount : Int}
    (positive : 0 < amount) (nonneg : 0 ≤ before) :
    0 < walletDebit credited before amount ↔ TakesSomething credited before amount := by
  unfold walletDebit TakesSomething
  cases quoted : credited.quote with
  | none => simp [positive]
  | some quote =>
    obtain ⟨source, target⟩ := credited.positive quote quoted
    have first := mul_nonneg target.le nonneg
    have more := mul_le_mul_of_nonneg_left (by omega : before ≤ before + amount) target.le
    rw [Int.sub_pos, ceilDiv_lt_iff source first more]
    simp

/-! ## The hold -/

/-- The wallet holds what the debit takes from each of its balances. -/
structure Covers (funded : FundedWallet) (credited : CreditedPayment) (debit : Int) : Prop where
  pending : fromPending credited debit ≤ funded.pending.balance
  available : debit - fromPending credited debit ≤ funded.available.balance

theorem utf16Length_of_small {text : String} (small : ∀ c ∈ text.toList, c.toNat < 0x10000) :
    utf16Length text = text.toList.length := by
  unfold utf16Length
  rw [List.map_congr_left fun c mem => if_pos (small c mem)]
  simp

/-- The reference of a hold is one the ledger accepts. -/
theorem reference_valid (request : Request) :
    isBlank ("refund-hold:" ++ request.reference) = false ∧
      utf16Length ("refund-hold:" ++ request.reference) ≤ 255 := by
  have text : ("refund-hold:" ++ request.reference).toList =
      "refund-hold:rfd_".toList ++ hexDigits 20 request.random := by
    unfold Request.reference
    generalize hexDigits 20 request.random = digits
    simp
  constructor
  · unfold isBlank
    rw [text, List.all_append]
    have first : ("refund-hold:rfd_".toList.all isTrimmed) = false := by decide
    rw [first, Bool.false_and]
  · rw [utf16Length_of_small, text, List.length_append, length_hexDigits]
    · decide
    · rw [text]
      intro c mem
      obtain fixed | digit := List.mem_append.mp mem
      · have all : "refund-hold:rfd_".toList.all (·.toNat < 0x10000) = true := by decide
        exact of_decide_eq_true (List.all_eq_true.mp all c fixed)
      · exact forall_mem_hexDigits (P := fun c => c.toNat < 0x10000) (by decide) _ _ c digit

variable (funded : FundedWallet) {movement : MoneyMovement} {part : Int}

/-- The posting of a hold that takes something passes `validatePosting`. -/
theorem reserveSplit_valid (positive : 0 < movement.amount) (nonneg : 0 ≤ part)
    (le : part ≤ movement.amount)
    (reference : isBlank movement.reference = false ∧ utf16Length movement.reference ≤ 255) :
    validatePosting (WalletsService.reserveSplitWithin funded.wallet movement part) =
      .ok movement.amount := by
  refine validatePosting_ok_iff.mpr ⟨reference, funded.currency, ?_, ?_, ?_, ?_, positive.ne'⟩
  all_goals
    simp only [WalletsService.reserveSplitWithin, WalletsService.splitEntries]
    -- Nothing, a part or all of it comes out of pending.
    split_ifs with fromPending fromAvailable fromAvailable
  all_goals
    simp [sideTotal, EntryDirection.opposite]
    try omega

/-- What the posting of a hold does to the wallet's accounts. -/
theorem delta_reserveSplit (nonneg : 0 ≤ part) (le : part ≤ movement.amount) :
    let entries := (WalletsService.reserveSplitWithin funded.wallet movement part).entries
    delta funded.available entries = -(movement.amount - part) ∧
      delta funded.pending entries = -part ∧ delta funded.reserved entries = movement.amount := by
  obtain ⟨available, pending, reserved⟩ := funded.ids
  obtain ⟨one, two, three⟩ := funded.distinct
  have first := (funded.liabilities funded.available (by simp)).1
  have second := (funded.liabilities funded.pending (by simp)).1
  have third := (funded.liabilities funded.reserved (by simp)).1
  simp only [WalletsService.reserveSplitWithin, WalletsService.splitEntries, delta, available,
    pending, reserved]
  refine ⟨?_, ?_, ?_⟩
  all_goals split_ifs <;>
    simp [one, one.symm, two, two.symm, three, three.symm, LedgerAccount.signed, first, second,
      third, EntryDirection.opposite]
  all_goals omega

/-- Each entry of a hold is on one of the wallet's accounts. -/
theorem entry_account {funded : FundedWallet} {entry : PostingEntry}
    (mem : entry ∈ (WalletsService.reserveSplitWithin funded.wallet movement part).entries) :
    ∃ account ∈ funded.accounts, account.id = entry.accountId := by
  obtain ⟨available, pending, reserved⟩ := funded.ids
  have on : entry.accountId ∈ [funded.wallet.pendingAccountId, funded.wallet.availableAccountId,
      funded.wallet.reservedAccountId] := by
    simp only [WalletsService.reserveSplitWithin, WalletsService.splitEntries, List.mem_append,
      List.mem_singleton] at mem
    obtain (mem | mem) | rfl := mem
    · split_ifs at mem
      · obtain rfl := List.mem_singleton.mp mem
        simp
      · cases mem
    · split_ifs at mem
      · obtain rfl := List.mem_singleton.mp mem
        simp
      · cases mem
    · simp
  simp only [List.mem_cons, List.not_mem_nil, or_false] at on
  obtain same | same | same := on
  · exact ⟨funded.pending, by simp [FundedWallet.accounts], pending.trans same.symm⟩
  · exact ⟨funded.available, by simp [FundedWallet.accounts], available.trans same.symm⟩
  · exact ⟨funded.reserved, by simp [FundedWallet.accounts], reserved.trans same.symm⟩

theorem assertSufficientFunds_ok {accounts : List LedgerAccount} {input : PostingInput}
    (present : ∀ entry ∈ input.entries, ∃ account ∈ accounts, account.id = entry.accountId)
    (funds : ∀ account ∈ accounts, 0 ≤ account.balance + delta account input.entries) :
    assertSufficientFunds accounts input = .ok () := by
  have none : (input.entries.find? fun entry =>
      ¬ accounts.any fun account => account.id = entry.accountId) = none := by
    refine List.find?_eq_none.mpr fun entry mem => ?_
    obtain ⟨account, here, same⟩ := present entry mem
    simpa using ⟨account, here, same⟩
  unfold assertSufficientFunds
  rw [none]
  dsimp only
  rw [if_neg]
  simp only [List.any_eq_true, Bool.and_eq_true, decide_eq_true_eq, not_exists, not_and, not_lt]
  exact fun account mem _ => funds account mem

/-- An active wallet that has the parts gives them. -/
theorem reserveSplit_ok {funded : FundedWallet} (active : funded.wallet.status = .active) (positive : 0 < movement.amount)
    (nonneg : 0 ≤ part) (le : part ≤ movement.amount)
    (reference : isBlank movement.reference = false ∧ utf16Length movement.reference ≤ 255)
    (pending : part ≤ funded.pending.balance)
    (available : movement.amount - part ≤ funded.available.balance) :
    reserveSplitWithin funded movement part =
      .ok (WalletsService.reserveSplitWithin funded.wallet movement part) := by
  have valid := reserveSplit_valid funded positive nonneg le reference
  obtain ⟨fromAvailable, fromPending, toReserved⟩ := delta_reserveSplit funded nonneg le
  have room : ∀ account ∈ funded.accounts, 0 ≤ account.balance +
      delta account (WalletsService.reserveSplitWithin funded.wallet movement part).entries := by
    have reserved := (funded.liabilities funded.reserved (by simp)).2.2
    intro account mem
    simp only [FundedWallet.accounts, List.mem_cons, List.not_mem_nil, or_false] at mem
    obtain rfl | rfl | rfl := mem
    · omega
    · omega
    · omega
  unfold reserveSplitWithin
  rw [if_neg (not_not.mpr active)]
  dsimp only
  generalize locked : (funded.accounts.filter fun account =>
    (WalletsService.reserveSplitWithin funded.wallet movement part).entries.any fun entry =>
      entry.accountId = account.id) = accounts
  have sub : ∀ account ∈ accounts, account ∈ funded.accounts := by
    rw [← locked]
    exact fun account mem => List.mem_of_mem_filter mem
  have currency : assertCurrency accounts funded.wallet.currency = .ok () := by
    unfold assertCurrency
    rw [if_neg]
    simp only [List.any_eq_true, decide_eq_true_eq, not_exists, not_and, not_not]
    exact fun account mem => (funded.liabilities account (sub account mem)).2.1
  have funds : assertSufficientFunds accounts
      (WalletsService.reserveSplitWithin funded.wallet movement part) = .ok () := by
    refine assertSufficientFunds_ok (fun entry mem => ?_)
      fun account mem => room account (sub account mem)
    obtain ⟨account, here, same⟩ := entry_account mem
    refine ⟨account, ?_, same⟩
    rw [← locked]
    exact List.mem_filter.mpr ⟨here, by simpa using ⟨entry, mem, same.symm⟩⟩
  have named : (WalletsService.reserveSplitWithin funded.wallet movement part).currency =
      funded.wallet.currency := rfl
  rw [valid, named, currency, funds]
  rfl

/-! ## The request -/

variable {funded}

/-- A request places its hold: the debit is positive, the posting valid, and the row passes. -/
def PlacesHold (result : Except Err Hold) : Prop :=
  ∃ hold, result = .ok hold ∧ 0 < hold.refund.walletDebitAmount ∧
    (∃ total, validatePosting hold.posting = .ok total) ∧ checkRefund hold.refund = .ok ()

theorem fromPending_bounds (credited : CreditedPayment) {debit : Int} (positive : 0 < debit) :
    0 ≤ fromPending credited debit ∧ fromPending credited debit ≤ debit := by
  have pending := credited.pending
  unfold fromPending
  split_ifs <;> omega

theorem placeHold_placed {credited : CreditedPayment} {request : Request} {amount : Int}
    {share : ConversionReversal} (positive : 0 < amount) (takes : 0 < share.walletDebit)
    (revenue : 0 ≤ share.revenueReversal)
    (gross : share.grossReversal = share.walletDebit + share.revenueReversal)
    (active : funded.wallet.status = .active) (covers : Covers funded credited share.walletDebit) :
    PlacesHold (placeHold credited funded request amount share) := by
  obtain ⟨nonneg, le⟩ := fromPending_bounds credited takes
  have reference := reference_valid request
  have reserved : reserveSplitWithin funded (holdMovement request share.walletDebit)
      (fromPending credited share.walletDebit) = .ok _ :=
    reserveSplit_ok active takes nonneg le reference covers.pending covers.available
  have checked : checkRefund (newRefund credited.payment funded.wallet request amount
      (fromPending credited share.walletDebit) share) = .ok () := by
    unfold checkRefund
    rw [if_neg (not_not.mpr ⟨positive, takes⟩), if_neg (not_not.mpr ⟨revenue, gross⟩)]
  refine ⟨⟨share.walletDebit, WalletsService.reserveSplitWithin funded.wallet
      (holdMovement request share.walletDebit) (fromPending credited share.walletDebit),
    credited.payment.pendingAmount - fromPending credited share.walletDebit,
    newRefund credited.payment funded.wallet request amount
      (fromPending credited share.walletDebit) share⟩, ?_, takes,
    ⟨_, reserveSplit_valid funded takes nonneg le reference⟩, checked⟩
  unfold placeHold
  rw [if_neg (not_le.mpr takes)]
  dsimp only
  rw [reserved, checked]
  rfl

/-- A request for an admissible amount against an active wallet that holds the computed debit is
placed exactly when it takes something. -/
theorem placesHold_iff (credited : CreditedPayment) (refunds : List Share)
    (rows : ∀ share ∈ refunds, 0 < share.amount) (funded : FundedWallet) (request : Request)
    (amount : Int) (asked : request.amount.getD (credited.payment.amount - committedAmount refunds) =
      amount) (positive : 0 < amount)
    (remaining : amount ≤ credited.payment.amount - committedAmount refunds)
    (active : funded.wallet.status = .active)
    (covers : Covers funded credited (walletDebit credited (committedAmount refunds) amount)) :
    PlacesHold (createWithHold credited .successful refunds funded request) ↔
      TakesSomething credited (committedAmount refunds) amount := by
  have before : 0 ≤ committedAmount refunds := total_nonneg fun share mem => (rows share mem).le
  obtain ⟨share, computed, debit, revenue, gross⟩ :=
    reversal_ok positive before (by omega : committedAmount refunds + amount ≤ credited.payment.amount)
  rw [← walletDebit_pos_iff positive before, ← debit]
  rw [← debit] at covers
  have inside : ¬ (amount ≤ 0 ∨ amount > credited.payment.amount - committedAmount refunds) := by
    omega
  have placed : createWithHold credited .successful refunds funded request =
      placeHold credited funded request amount share := by
    unfold createWithHold
    simp only [reduceCtorEq, if_false, ne_eq, not_true, asked, if_neg inside, computed]
    rfl
  rw [placed]
  by_cases takes : 0 < share.walletDebit
  · exact iff_of_true (placeHold_placed positive takes revenue gross active covers) takes
  · refine iff_of_false ?_ takes
    rintro ⟨hold, success, -⟩
    unfold placeHold at success
    rw [if_pos (not_lt.mp takes)] at success
    cases success

theorem placeHold_ok {credited : CreditedPayment} {request : Request} {amount : Int}
    {share : ConversionReversal} {hold : Hold}
    (placed : placeHold credited funded request amount share = .ok hold) :
    0 < share.walletDebit ∧ hold.refund = newRefund credited.payment funded.wallet request amount
      (fromPending credited share.walletDebit) share := by
  unfold placeHold at placed
  split_ifs at placed with nothing
  · cases placed
  · obtain ⟨posting, -, placed⟩ := bind_eq_ok.mp placed
    obtain ⟨_, -, placed⟩ := bind_eq_ok.mp placed
    cases placed
    exact ⟨not_le.mp nothing, rfl⟩

/-- A hold on a converted payment is a step of the course of its refunds. -/
theorem course_of_hold {credited : CreditedPayment} {quote : FxQuote}
    (quoted : credited.quote = some quote) {refunds : List Share} {request : Request} {hold : Hold}
    (placed : createWithHold credited .successful refunds funded request = .ok hold) :
    RefundCourse.createWithHold
        ⟨quote.sourceAmount, quote.targetAmount, quote.grossTargetAmount⟩ credited.payment.currency
        request.amount ⟨.successful, refunds⟩ =
      .ok ⟨.successful, refunds ++ [⟨hold.refund.amount, hold.refund.walletDebitAmount,
        hold.refund.revenueReversal, hold.refund.grossReversal, .processing⟩]⟩ := by
  have charged := credited.charged quote quoted
  unfold createWithHold at placed
  simp only [reduceCtorEq, if_false, ne_eq, not_true, reversal, quoted] at placed
  split_ifs at placed with outside
  · cases placed
  obtain ⟨share, computed, placed⟩ := bind_eq_ok.mp placed
  obtain ⟨takes, same⟩ := placeHold_ok placed
  unfold RefundCourse.createWithHold
  simp only [reduceCtorEq, if_false, ne_eq, not_true, charged]
  rw [charged] at computed
  rw [if_neg outside, computed, same]
  change (if share.walletDebit ≤ 0 then _ else _) = _
  rw [if_neg (not_le.mpr takes)]
  rfl

/-- The first refund of a payment takes something. -/
theorem takesSomething_first (credited : CreditedPayment) {amount : Int} (positive : 0 < amount) :
    TakesSomething credited 0 amount := by
  intro quote quoted
  refine ⟨0, by simp, ?_⟩
  rw [zero_mul, zero_add]
  exact mul_pos (credited.positive quote quoted).2 positive

/-- So does a refund that is worth a whole unit of the wallet's currency. -/
theorem takesSomething_of_worth {credited : CreditedPayment} {before amount : Int}
    (nonneg : 0 ≤ before)
    (worth : ∀ quote ∈ credited.quote, quote.sourceAmount ≤ quote.targetAmount * amount) :
    TakesSomething credited before amount := by
  intro quote quoted
  obtain ⟨source, target⟩ := credited.positive quote quoted
  have first := mul_nonneg target.le nonneg
  have unit := worth quote quoted
  refine ⟨ceilDiv (quote.targetAmount * before) quote.sourceAmount,
    (ceilDiv_le_iff source first).mp le_rfl, ?_⟩
  have below : ¬ ceilDiv (quote.targetAmount * before) quote.sourceAmount ≤
      ceilDiv (quote.targetAmount * before) quote.sourceAmount - 1 := by omega
  rw [ceilDiv_le_iff source first, not_le, sub_mul, one_mul] at below
  rw [mul_add]
  omega

/-! ### 1550 naira for one dollar -/

def ngnPayment : CreditedPayment where
  payment :=
    { id := 1
      transactionId := 2
      owner := .user 3
      walletId := 4
      provider := "paystack"
      providerReference := some "trx_1"
      amount := 155000
      currency := "NGN"
      fxQuoteId := some 5 }
  quote := some
    { id := 5
      userId := some 3
      sourceCurrency := "NGN"
      targetCurrency := "USD"
      sourceAmount := 155000
      targetAmount := 100
      grossTargetAmount := 101
      expiresAt := 0 }
  quoted := rfl
  charged := by simp
  positive := by simp
  within := by simp
  pending := by decide

def liability (id : Uuid) (balance : Int) : LedgerAccount :=
  ⟨id, none, "wallet", .liability, .credit, "USD", balance, false⟩

def usdWallet : FundedWallet where
  wallet := ⟨4, .user 3, "USD", .active, true, 6, 7, 8⟩
  available := liability 6 100
  pending := liability 7 0
  reserved := liability 8 0
  ids := ⟨rfl, rfl, rfl⟩
  distinct := by decide
  liabilities := by decide
  currency := by decide

def refundOf (amount : Int) : Request := ⟨9, some amount, "returned goods", "key", 10, 11, 0, 0⟩

/-- Ten naira, the first refund of the payment: one cent is held. -/
theorem places_first_hold :
    PlacesHold (createWithHold ngnPayment .successful [] usdWallet (refundOf 1000)) :=
  (placesHold_iff ngnPayment [] (fun _ mem => by cases mem) usdWallet (refundOf 1000) 1000 rfl
    (by decide) (by decide) rfl ⟨by decide, by decide⟩).mpr
      (takesSomething_first ngnPayment (by decide))

/-- Five naira more: the cent that was held covers them, and the refund is refused. -/
theorem refuses_second_hold :
    ¬ PlacesHold (createWithHold ngnPayment .successful [⟨1000, 1, 0, 1, .processing⟩] usdWallet
      (refundOf 500)) := by
  rintro ⟨hold, placed, -⟩
  cases placed

end Finstack.RefundRequests
