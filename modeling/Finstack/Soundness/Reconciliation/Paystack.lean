import Finstack.Model.Reconciliation.Paystack
import Finstack.Soundness.Reconciliation.Payments

/-! # A listed transaction and a verified one

Both ways to a record of a Paystack transaction lead to the same items, but for the two statuses of
money that was collected and is on its way back: the list takes it for collected, the verification
does not.
-/

namespace Finstack.Reconciliation

open Foundation PaymentProviders Paystack

/-- The money was collected, and a refund came later or is under way. -/
def refunded (status : String) : Bool :=
  status = "reversed" || status = "reversal-pending"

/-- What the verification of a listed transaction answers. -/
def verified (t : PaystackListedTransaction) : PaystackTransaction :=
  ⟨t.reference, t.status, t.amount, t.currency⟩

/-- The record that is made of a verification. -/
def verifiedRecord (payment : Payment) (t : PaystackListedTransaction) : ProviderPaymentRecord where
  providerReference := t.reference
  reference := none
  status := recordStatus (mapStatus t.status)
  amount := t.amount
  currency := t.currency
  createdAt := payment.createdAt

/-! ## What an item says -/

/-- A record without what only tells where it comes from: a verification echoes no reference, and is
dated like the payment. -/
def ProviderPaymentRecord.stated (record : ProviderPaymentRecord) : ProviderPaymentRecord :=
  { record with reference := none, createdAt := 0 }

def NewItem.stated (item : NewItem) : NewItem :=
  { item with provider := item.provider.map fun
    | .payment record => .payment record.stated
    | .payout record => .payout record }

/-- What a run's items on a payment say. -/
def saysOf (payment : Payment) (run : Run) : List NewItem :=
  (itemsOn payment run.found).map NewItem.stated

/-! ## The two mappings -/

theorem mappings_agree {status : String} (kept : refunded status = false) :
    recordStatus (mapStatus status) = mapListedStatus status := by
  unfold refunded at kept
  simp only [Bool.or_eq_false_iff, decide_eq_false_iff_not] at kept
  obtain ⟨notReversed, notPending⟩ := kept
  unfold mapStatus mapListedStatus
  simp only [notReversed, notPending, decide_false, Bool.or_false, Bool.false_eq_true, if_false]
  split_ifs <;> rfl

/-- Collected, says the list; not collected, says the verification. -/
theorem mappings_differ {status : String} (returned : refunded status = true) :
    COLLECTED (mapListedStatus status) = true ∧
      COLLECTED (recordStatus (mapStatus status)) = false := by
  unfold refunded at returned
  simp only [Bool.or_eq_true, decide_eq_true_eq] at returned
  rcases returned with rfl | rfl <;> decide

/-! ## One comparison -/

section

variable (environment : Environment) {payment : Payment} {record record' : ProviderPaymentRecord}

theorem saysOf_push (run : Run) (transaction : Transaction) (issue : ReconciliationIssue)
    (status : Option ReconciliationItemStatus) :
    saysOf payment (run.push (paymentItem payment record transaction issue status)) =
      saysOf payment run ++ [paymentItem payment record.stated transaction issue status] := by
  simp [saysOf, NewItem.stated, paymentItem]

/-- A comparison goes by what a record says. -/
theorem compare_says (same : record.stated = record'.stated) (run : Run) :
    saysOf payment (comparePayment environment payment record run) =
      saysOf payment (comparePayment environment payment record' run) := by
  have status : record.status = record'.status := congrArg (·.status) same
  have amount : record.amount = record'.amount := congrArg (·.amount) same
  have currency : record.currency = record'.currency := congrArg (·.currency) same
  unfold comparePayment
  simp only [status, amount, currency]
  split_ifs <;> simp only [saysOf_push, same]

/-- What a comparison says of a collected record: nothing, or something other than that the payment
was credited without it. -/
theorem compare_collected (collected : COLLECTED record.status = true) (run : Run) :
    (CREDITED (run.transactionOf payment).status = true ∧
      saysOf payment (comparePayment environment payment record run) = saysOf payment run) ∨
    ∃ transaction issue status, issue ≠ .creditedWithoutPayment ∧
      saysOf payment (comparePayment environment payment record run) =
        saysOf payment run ++ [paymentItem payment record.stated transaction issue status] := by
  unfold comparePayment
  simp only [collected, Bool.true_and, Bool.not_true, Bool.false_and, Bool.false_eq_true, if_false]
  split_ifs with differs uncredited opened settled
  · exact .inr ⟨_, .amountMismatch, _, nofun, saysOf_push ..⟩
  · exact .inr ⟨_, .lateSettlement, _, nofun, saysOf_push ..⟩
  · exact .inr ⟨_, .notCredited, _, nofun, saysOf_push ..⟩
  · exact .inr ⟨_, .notCredited, _, nofun, saysOf_push ..⟩
  · exact .inl ⟨by simpa using uncredited, rfl⟩

/-- What it says of a record that was not collected. -/
theorem compare_uncollected (uncollected : COLLECTED record.status = false) (run : Run) :
    saysOf payment (comparePayment environment payment record run) =
      saysOf payment run ++
        if CREDITED (run.transactionOf payment).status then
          [paymentItem payment record.stated (run.transactionOf payment) .creditedWithoutPayment none]
        else [] := by
  unfold comparePayment
  simp only [uncollected, Bool.false_and, Bool.not_false, Bool.true_and, Bool.false_eq_true, if_false]
  split_ifs
  · exact saysOf_push ..
  · exact (List.append_nil _).symm

/-- For a payment in any status, the two records of a transaction say the same exactly when its money
is not on its way back. -/
theorem compare_same_iff (t : PaystackListedTransaction) (run : Run) :
    saysOf payment (comparePayment environment payment (listedRecord t) run) =
        saysOf payment (comparePayment environment payment (verifiedRecord payment t) run) ↔
      refunded t.status = false := by
  constructor
  · intro same
    by_contra returned
    obtain ⟨collected, uncollected⟩ := mappings_differ (Bool.eq_true_of_not_eq_false returned)
    have uncollected : COLLECTED (verifiedRecord payment t).status = false := uncollected
    have collected : COLLECTED (listedRecord t).status = true := collected
    rw [compare_uncollected environment uncollected] at same
    rcases compare_collected environment collected run with
      ⟨credited, quiet⟩ | ⟨transaction, issue, status, other, loud⟩
    · rw [quiet, if_pos credited] at same
      simp at same
    · rw [loud, List.append_cancel_left_eq] at same
      split_ifs at same
      exact other (congrArg NewItem.issue (List.singleton_inj.mp same))
  · intro kept
    apply compare_says
    simp [ProviderPaymentRecord.stated, listedRecord, verifiedRecord, mappings_agree kept]

end

/-! ## Two runs -/

section

variable {environment : Environment} {payments : Payments} {range : TimeRange}
  {transactions : Uuid → Transaction} {theirs : List ProviderPaymentRecord} {after : Run}
  {payment : Payment} {t : PaystackListedTransaction}

/-- The transaction is the payment's at Paystack: the reference FinStack gave it names both. -/
structure Belongs (payment : Payment) (transaction : Transaction) (t : PaystackListedTransaction) :
    Prop where
  provider : payment.provider = "paystack"
  providerReference : payment.providerReference = some t.reference
  reference : transaction.reference = t.reference
  named : t.reference ≠ ""

/-- The list of the period holds the transaction, once. -/
def Lists (fetch : Nat → Except Thrown Page) (range : TimeRange) (t : PaystackListedTransaction) :
    Prop :=
  ∃ items, listAll fetch range = .ok items ∧ (items.filter fun item => item.reference == t.reference) = [t]

def Omits (fetch : Nat → Except Thrown Page) (range : TimeRange) (t : PaystackListedTransaction) :
    Prop :=
  ∃ items, listAll fetch range = .ok items ∧ (items.filter fun item => item.reference == t.reference) = []

theorem recordsOf_listed {transaction : Transaction} (belongs : Belongs payment transaction t)
    (items : List PaystackListedTransaction) :
    recordsOf "paystack" payment (items.map listedRecord) =
      (items.filter fun item => item.reference == t.reference).map listedRecord := by
  have same : ∀ item : PaystackListedTransaction,
      (payment.provider == "paystack" && payment.providerReference == some item.reference) =
        (item.reference == t.reference) := by
    intro item
    rw [belongs.provider, belongs.providerReference, beq_self_eq_true, Bool.true_and,
      Option.some_beq_some, Bool.beq_comm]
  unfold recordsOf
  rw [List.filter_map]
  exact congrArg _ (List.filter_congr fun item _ => same item)

theorem saysOf_congr {run run' : Run} (same : whole payment run = whole payment run') :
    saysOf payment run = saysOf payment run' :=
  congrArg (fun own => own.2.2.map NewItem.stated) same

/-- The list includes the transaction. -/
theorem listed_run (mem : payment ∈ payments.rows)
    (ran : reconcilePayments environment "paystack" payments range theirs (.start transactions) =
      .ok after)
    (here : recordsOf "paystack" payment theirs = [listedRecord t]) :
    saysOf payment after =
      saysOf payment (comparePayment environment payment (listedRecord t) (.start transactions)) := by
  unfold reconcilePayments at ran
  have seen : recordsOf "paystack" payment theirs ≠ [] := by simp [here]
  have first := first_pass_whole environment "paystack" range mem theirs (.start transactions)
  rw [here, List.foldl_cons, List.foldl_nil, ← compare_whole] at first
  exact saysOf_congr ((second_pass_seen environment "paystack" range mem seen ran).trans first)

/-- The list omits it, and Paystack is asked. -/
theorem omitted_run (belongs : Belongs payment (transactions payment.transactionId) t)
    (listed : payment ∈ listForProvider "paystack" payments range)
    (answers : environment.verifyPayment t.reference t.reference =
      verifyPayment (verified t) ⟨t.reference, t.reference⟩)
    (credited : CREDITED (transactions payment.transactionId).status = true)
    (ran : reconcilePayments environment "paystack" payments range theirs (.start transactions) =
      .ok after)
    (gone : recordsOf "paystack" payment theirs = []) :
    saysOf payment after = saysOf payment
      (comparePayment environment payment (verifiedRecord payment t) (.start transactions)) := by
  have mem := (mem_listForProvider "paystack" range listed).1
  unfold reconcilePayments at ran
  have first := first_pass_whole environment "paystack" range mem theirs (.start transactions)
  rw [gone, List.foldl_nil] at first
  obtain ⟨s, s', before, turn, last⟩ := second_pass_turn environment "paystack" range listed ran
  have start : whole payment s = whole payment (.start transactions) := before.trans first
  have transaction : s.transactionOf payment = transactions payment.transactionId :=
    congrArg Prod.fst start
  have unseen : (theirs.map fun record => record.providerReference).contains t.reference = false := by
    rw [Bool.eq_false_iff]
    intro seen
    obtain ⟨record, there, same⟩ := List.mem_map.mp (List.contains_iff_mem.mp seen)
    have own : record ∈ recordsOf "paystack" payment theirs :=
      List.mem_filter.mpr ⟨there, by simp [belongs.provider, belongs.providerReference, same]⟩
    rw [gone] at own
    cases own
  have asked : askAbout environment payment t.reference s =
      .ok (comparePayment environment payment (verifiedRecord payment t) s) := by
    unfold askAbout
    dsimp only
    rw [transaction, belongs.reference, answers]
    simp [verifyPayment, verified, verifiedRecord]
  unfold checkUnseen at turn
  rw [belongs.providerReference] at turn
  simp only [belongs.named, unseen, transaction, credited, decide_false, Bool.or_false, Bool.not_true,
    Bool.false_eq_true, if_false, asked] at turn
  cases turn
  exact saysOf_congr (last.trans (compare_congr environment start _))

/-- The run that lists the transaction and the run that asks for it say the same of the payment
exactly when its money is not on its way back; and so do the two comparisons, whatever the status of
the payment. -/
theorem paths_agree_iff {fetch fetch' : Nat → Except Thrown Page} {listing asking : Run}
    (belongs : Belongs payment (transactions payment.transactionId) t)
    (here : payment ∈ listForProvider "paystack" payments range)
    (lists : Lists fetch range t) (omits : Omits fetch' range t)
    (answers : environment.verifyPayment t.reference t.reference =
      verifyPayment (verified t) ⟨t.reference, t.reference⟩)
    (listed : reconcilePaystack environment payments range fetch (.start transactions) = .ok listing)
    (asked : reconcilePaystack environment payments range fetch' (.start transactions) = .ok asking) :
    (CREDITED (transactions payment.transactionId).status = true →
      (saysOf payment listing = saysOf payment asking ↔ refunded t.status = false)) ∧
    ∀ run, saysOf payment (comparePayment environment payment (listedRecord t) run) =
        saysOf payment (comparePayment environment payment (verifiedRecord payment t) run) ↔
      refunded t.status = false := by
  refine ⟨fun credited => ?_, compare_same_iff environment t⟩
  have mem := (mem_listForProvider "paystack" range here).1
  obtain ⟨items, page, found⟩ := lists
  obtain ⟨items', page', missing⟩ := omits
  have theirs : recordsOf "paystack" payment (items.map listedRecord) = [listedRecord t] := by
    rw [recordsOf_listed belongs, found, List.map_singleton]
  have theirs' : recordsOf "paystack" payment (items'.map listedRecord) = [] := by
    rw [recordsOf_listed belongs, missing, List.map_nil]
  simp only [reconcilePaystack, listPayments, page] at listed
  simp only [reconcilePaystack, listPayments, page'] at asked
  rw [listed_run mem listed theirs, omitted_run belongs here answers credited asked theirs']
  exact compare_same_iff environment t _

end

/-! ### A credited payment -/

def paidIn : Payment := { topUp with provider := "paystack" }

def onePaidIn : Payments :=
  ⟨[paidIn], List.pairwise_singleton .., List.pairwise_singleton .., List.pairwise_singleton ..⟩

/-- Paystack's transaction `trx_1` of 5000 kobo. -/
def paystackWith (status : String) : PaystackListedTransaction :=
  ⟨"trx_1", status, 5000, "NGN", some (some 0), none⟩

/-- Paystack answers about it. -/
def answering (status : String) : Environment :=
  ⟨fun _ _ status => status, fun reference providerReference =>
    verifyPayment (verified (paystackWith status)) ⟨reference, providerReference⟩⟩

def listing (status : String) (_ : Nat) : Except Thrown Page := .ok ⟨[paystackWith status], some 1⟩

def omitting (_ : Nat) : Except Thrown Page := .ok ⟨[], some 1⟩

/-- Money that stays: both runs say nothing. -/
theorem paths_agree_on_success : ∃ listed asked,
    reconcilePaystack (answering "success") onePaidIn ⟨0, 1⟩ (listing "success")
      (.start fun _ => credited) = .ok listed ∧
    reconcilePaystack (answering "success") onePaidIn ⟨0, 1⟩ omitting
      (.start fun _ => credited) = .ok asked ∧
    saysOf paidIn listed = saysOf paidIn asked := by
  refine ⟨_, _, rfl, rfl, ?_⟩
  have belongs : Belongs paidIn credited (paystackWith "success") := ⟨rfl, rfl, rfl, by decide⟩
  have lists : Lists (listing "success") ⟨0, 1⟩ (paystackWith "success") := ⟨_, rfl, rfl⟩
  have omits : Omits omitting ⟨0, 1⟩ (paystackWith "success") := ⟨_, rfl, rfl⟩
  have here : paidIn ∈ listForProvider "paystack" onePaidIn ⟨0, 1⟩ := List.mem_singleton_self _
  have answers : (answering "success").verifyPayment "trx_1" "trx_1" =
    verifyPayment (verified (paystackWith "success")) ⟨"trx_1", "trx_1"⟩ := rfl
  exact ((paths_agree_iff belongs here lists omits answers rfl rfl).1 rfl).mpr (by decide)

/-- Money that was collected and refunded: one run says nothing, the other that the payment was
credited without it. -/
theorem paths_differ_on_reversed : ∃ listed asked,
    reconcilePaystack (answering "reversed") onePaidIn ⟨0, 1⟩ (listing "reversed")
      (.start fun _ => credited) = .ok listed ∧
    reconcilePaystack (answering "reversed") onePaidIn ⟨0, 1⟩ omitting
      (.start fun _ => credited) = .ok asked ∧
    itemsOn paidIn listed.found = [] ∧
    (itemsOn paidIn asked.found).map NewItem.issue = [.creditedWithoutPayment] :=
  ⟨_, _, rfl, rfl, rfl, rfl⟩

end Finstack.Reconciliation
