import Finstack.Foundation.KeyedFold
import Mathlib.Data.List.Pairwise
import Mathlib.Data.List.TakeWhile
import Finstack.Model.Reconciliation.Payments

/-! # What a run says about one payment

The loop is over records and not over payments: what it does to one payment is what the records
under its reference do, in the provider's order. `sound_iff_agreeable` says of every list of records
exactly when the run raises no false alarm on a payment and reports it at most once.
-/

namespace Finstack.Reconciliation

open Foundation PaymentProviders

section

variable (environment : Environment) (provider : String) (payments : Payments) (range : TimeRange)

/-! ## The claim about one payment -/

/-- The records under the payment's reference, in the provider's order. -/
def recordsOf (payment : Payment) (theirs : List ProviderPaymentRecord) :
    List ProviderPaymentRecord :=
  theirs.filter fun record =>
    payment.provider == provider && payment.providerReference == some record.providerReference

/-- A collected record with the payment's amount and currency. -/
def agrees (payment : Payment) (record : ProviderPaymentRecord) : Bool :=
  COLLECTED record.status && (record.amount == payment.amount && record.currency == payment.currency)

/-- The items of a run on a payment. -/
def itemsOn (payment : Payment) (found : List NewItem) : List NewItem :=
  found.filter fun item => item.targetId == some payment.id

/-- No open item on a payment that is collected and credited, and never more than one item. -/
structure Sound (payment : Payment) (theirs : List ProviderPaymentRecord) (run : Run) : Prop where
  noFalseAlarm : (∃ record ∈ recordsOf provider payment theirs, agrees payment record = true) →
    CREDITED (run.transactionOf payment).status = true →
      ∀ item ∈ itemsOn payment run.found, item.savedStatus ≠ .open
  once : (itemsOn payment run.found).length ≤ 1

/-- The records of a payment, against the status of its transaction before the run. A credited
payment has one record or only records that agree. Any other has no record after its first collected
one that was collected too; where the run settles it on that record, those after it agree. -/
def Agreeable (payment : Payment) (status : TransactionStatus)
    (records : List ProviderPaymentRecord) : Prop :=
  if CREDITED status then
    (∀ record ∈ records, agrees payment record = true) ∨ records.length ≤ 1
  else
    match records.dropWhile fun record => !COLLECTED record.status with
    | [] => True
    | first :: later =>
      if OPEN_PAYMENT status && agrees payment first &&
          CREDITED (environment.settle payment.id 0 status) then
        ∀ record ∈ later, agrees payment record = true
      else ∀ record ∈ later, COLLECTED record.status = false

/-! ## One comparison -/

/-- What a comparison does: the transaction afterwards, the attempts, and the status of its item. -/
def outcome (payment : Payment) (record : ProviderPaymentRecord) (transaction : Transaction)
    (attempts : Nat) : Transaction × Nat × List ReconciliationItemStatus :=
  if CREDITED transaction.status then
    (transaction, attempts, if agrees payment record then [] else [.open])
  else if !COLLECTED record.status then (transaction, attempts, [])
  else if OPEN_PAYMENT transaction.status && agrees payment record then
    let status := environment.settle payment.id attempts transaction.status
    ({ transaction with status }, attempts + 1, [if CREDITED status then .autoResolved else .open])
  else (transaction, attempts, [.open])

/-- What a run holds of one payment. -/
def whole (payment : Payment) (run : Run) : Transaction × Nat × List NewItem :=
  (run.transactionOf payment, run.attempts payment.id, itemsOn payment run.found)

/-- A run's part that belongs to one payment. -/
def part (payment : Payment) (run : Run) : Transaction × Nat × List ReconciliationItemStatus :=
  (run.transactionOf payment, run.attempts payment.id,
    (itemsOn payment run.found).map NewItem.savedStatus)

/-- A comparison, on the payment's own part. -/
def compareOwn (payment : Payment) (own : Transaction × Nat × List ReconciliationItemStatus)
    (record : ProviderPaymentRecord) : Transaction × Nat × List ReconciliationItemStatus :=
  let result := outcome environment payment record own.1 own.2.1
  (result.1, result.2.1, own.2.2 ++ result.2.2)

@[simp] theorem itemsOn_push (payment : Payment) (run : Run) (item : NewItem) :
    itemsOn payment (run.push item).found =
      itemsOn payment run.found ++ if item.targetId = some payment.id then [item] else [] := by
  unfold itemsOn Run.push
  rw [List.filter_append, List.filter_singleton]
  simp

@[simp] theorem push_transactionOf (payment : Payment) (run : Run) (item : NewItem) :
    (run.push item).transactionOf payment = run.transactionOf payment := rfl

@[simp] theorem push_attempts (run : Run) (item : NewItem) :
    (run.push item).attempts = run.attempts := rfl

theorem part_congr {payment : Payment} {run run' : Run} (same : whole payment run' = whole payment run) :
    part payment run' = part payment run :=
  congrArg (fun own => (own.1, own.2.1, own.2.2.map NewItem.savedStatus)) same

theorem push_other {payment : Payment} {run : Run} {item : NewItem}
    (other : item.targetId ≠ some payment.id) :
    whole payment (run.push item) = whole payment run := by
  simp [whole, other]

@[simp] theorem settle_found (payment : Payment) (run : Run) :
    (run.settle environment payment).found = run.found := rfl

@[simp] theorem settle_attempts (payment : Payment) (run : Run) :
    (run.settle environment payment).attempts payment.id = run.attempts payment.id + 1 := by
  simp [Run.settle]

@[simp] theorem settle_transactionOf (payment : Payment) (run : Run) :
    (run.settle environment payment).transactionOf payment =
      { run.transactionOf payment with
        status := environment.settle payment.id (run.attempts payment.id)
          (run.transactionOf payment).status } := by
  simp [Run.settle, Run.transactionOf]

theorem settle_other {payment other : Payment} {run : Run} (ids : other.id ≠ payment.id)
    (transactions : other.transactionId ≠ payment.transactionId) :
    whole payment (run.settle environment other) = whole payment run := by
  simp [whole, Run.settle, Run.transactionOf, Function.update_of_ne ids.symm,
    Function.update_of_ne transactions.symm]

@[simp] theorem paymentItem_targetId (payment : Payment) (record : ProviderPaymentRecord)
    (transaction : Transaction) (issue : ReconciliationIssue)
    (status : Option ReconciliationItemStatus) :
    (paymentItem payment record transaction issue status).targetId = some payment.id := rfl

@[simp] theorem paymentItem_savedStatus (payment : Payment) (record : ProviderPaymentRecord)
    (transaction : Transaction) (issue : ReconciliationIssue)
    (status : Option ReconciliationItemStatus) :
    (paymentItem payment record transaction issue status).savedStatus = status.getD .open := rfl

theorem compare_own (payment : Payment) (record : ProviderPaymentRecord) (run : Run) :
    part payment (comparePayment environment payment record run) =
      compareOwn environment payment (part payment run) record := by
  have differs : (record.amount != payment.amount || record.currency != payment.currency) =
      !(record.amount == payment.amount && record.currency == payment.currency) := by
    rw [Bool.not_and]
    rfl
  unfold comparePayment compareOwn outcome agrees
  rw [differs]
  cases collected : COLLECTED record.status with
  | false =>
    cases credited : CREDITED (run.transactionOf payment).status with
    | false => simp [credited, part]
    | true => simp [credited, part]
  | true =>
    cases same : record.amount == payment.amount && record.currency == payment.currency with
    | false => cases credited : CREDITED (run.transactionOf payment).status <;> simp [credited, part]
    | true =>
      cases credited : CREDITED (run.transactionOf payment).status with
      | true => simp [credited, part]
      | false =>
        cases opened : OPEN_PAYMENT (run.transactionOf payment).status with
        | false => simp [credited, opened, part]
        | true =>
          -- The run tries to settle it and reads its transaction again.
          cases settled : CREDITED (environment.settle payment.id (run.attempts payment.id)
            (run.transactionOf payment).status) <;> simp [credited, opened, settled, part]

/-- A comparison sees no more of a run than what the run holds of the payment. -/
theorem compare_congr {payment : Payment} {run run' : Run}
    (same : whole payment run = whole payment run') (record : ProviderPaymentRecord) :
    whole payment (comparePayment environment payment record run) =
      whole payment (comparePayment environment payment record run') := by
  have transaction : run.transactionOf payment = run'.transactionOf payment :=
    congrArg Prod.fst same
  have attempts : run.attempts payment.id = run'.attempts payment.id :=
    congrArg (fun own => own.2.1) same
  have items : itemsOn payment run.found = itemsOn payment run'.found :=
    congrArg (fun own => own.2.2) same
  unfold comparePayment whole
  simp only [transaction, settle_transactionOf, attempts]
  split_ifs <;> simp [transaction, attempts, items]

/-- A run that holds nothing else. -/
def holding (own : Transaction × Nat × List NewItem) : Run :=
  ⟨fun _ => own.1, fun _ => own.2.1, own.2.2⟩

/-- A comparison, on what a run holds of the payment. -/
def compareWhole (payment : Payment) (own : Transaction × Nat × List NewItem)
    (record : ProviderPaymentRecord) : Transaction × Nat × List NewItem :=
  whole payment (comparePayment environment payment record (holding own))

theorem compare_whole (payment : Payment) (record : ProviderPaymentRecord) (run : Run) :
    whole payment (comparePayment environment payment record run) =
      compareWhole environment payment (whole payment run) record := by
  refine compare_congr environment ?_ record
  simp [whole, holding, itemsOn, Run.transactionOf]

theorem outcome_length (payment : Payment) (record : ProviderPaymentRecord)
    (transaction : Transaction) (attempts : Nat) :
    (outcome environment payment record transaction attempts).2.2.length ≤ 1 := by
  unfold outcome
  split_ifs <;> simp

/-- A comparison makes one item at most. -/
theorem compare_length (payment : Payment) (record : ProviderPaymentRecord) (run : Run) :
    (itemsOn payment (comparePayment environment payment record run).found).length ≤
      (itemsOn payment run.found).length + 1 := by
  have same := congrArg (fun own => own.2.2.length) (compare_own environment payment record run)
  have one := outcome_length environment payment record (run.transactionOf payment)
    (run.attempts payment.id)
  simp only [part, compareOwn, List.length_map, List.length_append] at same
  omega

theorem compare_other {payment other : Payment} (record : ProviderPaymentRecord) (run : Run)
    (ids : other.id ≠ payment.id) (transactions : other.transactionId ≠ payment.transactionId) :
    whole payment (comparePayment environment other record run) = whole payment run := by
  have target : ∀ t i s, (paymentItem other record t i s).targetId ≠ some payment.id := by
    intro t i s same
    exact ids (Option.some.inj same)
  have settled : whole payment (run.settle environment other) = whole payment run :=
    settle_other environment ids transactions
  unfold comparePayment
  dsimp only
  split_ifs
  · exact push_other (target _ _ _)
  · exact (push_other (target _ _ _)).trans settled
  · exact (push_other (target _ _ _)).trans settled
  · exact push_other (target _ _ _)
  · exact push_other (target _ _ _)
  · rfl

/-! ## Whose record it is -/

variable {payments}

theorem Payments.apart {R : Payment → Payment → Prop} (all : payments.rows.Pairwise R)
    (symm : ∀ p q, R p q → R q p) {p q : Payment} (memP : p ∈ payments.rows)
    (memQ : q ∈ payments.rows) (differ : p ≠ q) : R p q :=
  have : Std.Symm R := ⟨symm⟩
  all.forall memP memQ differ

theorem Payments.ids_ne {p q : Payment} (memP : p ∈ payments.rows) (memQ : q ∈ payments.rows)
    (differ : p ≠ q) : p.id ≠ q.id :=
  payments.apart payments.ids (fun _ _ ne => ne.symm) memP memQ differ

theorem Payments.transactionIds_ne {p q : Payment} (memP : p ∈ payments.rows)
    (memQ : q ∈ payments.rows) (differ : p ≠ q) : p.transactionId ≠ q.transactionId :=
  payments.apart payments.transactionIds (fun _ _ ne => ne.symm) memP memQ differ

/-- The unique index leaves one payment for a reference. -/
theorem Payments.eq_of_reference {p q : Payment} (memP : p ∈ payments.rows)
    (memQ : q ∈ payments.rows) (provider : p.provider = q.provider) {reference : String}
    (hereP : p.providerReference = some reference) (hereQ : q.providerReference = some reference) :
    p = q := by
  by_contra differ
  have apart := payments.apart payments.providerReferences
    (fun x y apart provider isSome same => apart provider.symm (same ▸ isSome) same.symm)
    memP memQ differ
  exact apart provider (by rw [hereP]; rfl) (hereP.trans hereQ.symm)

theorem mem_of_oursByReference {ours : List Payment} {reference : String} {payment : Payment}
    (found : oursByReference ours reference = some payment) :
    payment ∈ ours ∧ payment.providerReference = some reference := by
  unfold oursByReference at found
  have mem := List.mem_of_find?_eq_some found
  rw [List.mem_reverse] at mem
  exact ⟨List.mem_of_mem_filter mem, by simpa using List.find?_some found⟩

theorem mem_listForProvider {payment : Payment}
    (mem : payment ∈ listForProvider provider payments range) :
    payment ∈ payments.rows ∧ payment.provider = provider := by
  unfold listForProvider at mem
  obtain ⟨mem, here⟩ := List.mem_filter.mp mem
  simp only [Bool.and_eq_true, beq_iff_eq] at here
  exact ⟨mem, here.1.1⟩

theorem mem_of_findByProviderReference {reference : String} {payment : Payment}
    (found : findByProviderReference provider payments reference = some payment) :
    payment ∈ payments.rows ∧ payment.provider = provider ∧
      payment.providerReference = some reference := by
  unfold findByProviderReference at found
  have here := List.find?_some found
  simp only [Bool.and_eq_true, beq_iff_eq] at here
  exact ⟨List.mem_of_find?_eq_some found, here.1, here.2⟩

/-- A record belongs to the payment it names, in the window or not. -/
theorem paymentOf_iff {record : ProviderPaymentRecord} {payment : Payment} :
    paymentOf provider payments range record = some payment ↔
      payment ∈ payments.rows ∧ payment.provider = provider ∧
        payment.providerReference = some record.providerReference := by
  have sound : ∀ p, paymentOf provider payments range record = some p →
      p ∈ payments.rows ∧ p.provider = provider ∧
        p.providerReference = some record.providerReference := by
    intro p found
    unfold paymentOf at found
    obtain inWindow | ⟨-, elsewhere⟩ := Option.or_eq_some_iff.mp found
    · obtain ⟨mem, reference⟩ := mem_of_oursByReference inWindow
      obtain ⟨mem, same⟩ := mem_listForProvider provider range mem
      exact ⟨mem, same, reference⟩
    · exact mem_of_findByProviderReference provider elsewhere
  refine ⟨sound payment, fun ⟨mem, same, reference⟩ => ?_⟩
  cases found : paymentOf provider payments range record with
  | some p =>
    obtain ⟨memP, sameP, referenceP⟩ := sound p found
    rw [Payments.eq_of_reference memP mem (sameP.trans same.symm) referenceP reference]
  | none =>
    unfold paymentOf at found
    have none := (Option.or_eq_none_iff.mp found).2
    unfold findByProviderReference at none
    have missed := List.find?_eq_none.mp none payment mem
    simp [same, reference] at missed

theorem recordsOf_eq {payment : Payment} (mem : payment ∈ payments.rows)
    (theirs : List ProviderPaymentRecord) : recordsOf provider payment theirs =
      theirs.filter fun record => paymentOf provider payments range record = some payment := by
  unfold recordsOf
  refine List.filter_congr fun record _ => ?_
  rw [Bool.eq_iff_iff, decide_eq_true_iff, paymentOf_iff]
  simp [mem]

/-- A record of another payment, or of none. -/
theorem record_other {payment : Payment} (mem : payment ∈ payments.rows)
    {record : ProviderPaymentRecord}
    (other : paymentOf provider payments range record ≠ some payment) (run : Run) :
    whole payment (compareRecord environment provider payments range run record) =
      whole payment run := by
  unfold compareRecord
  cases found : paymentOf provider payments range record with
  | none =>
    dsimp only
    split_ifs
    · exact push_other (by simp)
    · rfl
  | some q =>
    have memQ := ((paymentOf_iff provider range).mp found).1
    have differ : q ≠ payment := fun same => other (found.trans (congrArg some same))
    exact compare_other environment record run (Payments.ids_ne memQ mem differ)
      (Payments.transactionIds_ne memQ mem differ)

/-- The first loop, on one payment. -/
theorem first_pass {payment : Payment} (mem : payment ∈ payments.rows)
    (theirs : List ProviderPaymentRecord) (run : Run) :
    part payment (theirs.foldl (compareRecord environment provider payments range) run) =
      (recordsOf provider payment theirs).foldl (compareOwn environment payment)
        (part payment run) := by
  rw [recordsOf_eq provider range mem]
  refine foldl_part ?_ ?_ theirs run
  · intro s record own
    unfold compareRecord
    rw [own]
    exact compare_own environment payment record s
  · intro s record other
    exact part_congr (record_other environment provider range mem other s)

/-- The first loop, with the items as they are. -/
theorem first_pass_whole {payment : Payment} (mem : payment ∈ payments.rows)
    (theirs : List ProviderPaymentRecord) (run : Run) :
    whole payment (theirs.foldl (compareRecord environment provider payments range) run) =
      (recordsOf provider payment theirs).foldl (compareWhole environment payment)
        (whole payment run) := by
  rw [recordsOf_eq provider range mem]
  refine foldl_part ?_ ?_ theirs run
  · intro s record own
    unfold compareRecord
    rw [own]
    exact compare_whole environment payment record s
  · intro s record other
    exact record_other environment provider range mem other s

/-! ## The second loop -/

theorem checkUnseen_other {payment other : Payment} {seen : List String} {run run' : Run}
    (ids : other.id ≠ payment.id) (transactions : other.transactionId ≠ payment.transactionId)
    (ran : checkUnseen environment seen run other = .ok run') :
    whole payment run' = whole payment run := by
  unfold checkUnseen askAbout at ran
  split at ran
  · cases ran
    rfl
  · split_ifs at ran
    · cases ran
      rfl
    · cases ran
      rfl
    · dsimp only at ran
      split at ran
      · cases ran
        exact compare_other environment _ run ids transactions
      · split_ifs at ran
        cases ran
        exact push_other (fun same => ids (Option.some.inj same))

/-- The payments the second loop goes through are different ones. -/
theorem listForProvider_nodup : (listForProvider provider payments range).Nodup := by
  refine List.Nodup.filter _ (payments.ids.imp fun ne same => ne (congrArg Payment.id same))

theorem second_pass_others {payment : Payment} (mem : payment ∈ payments.rows) {ours : List Payment}
    (sub : ours ⊆ listForProvider provider payments range) (missing : payment ∉ ours)
    {seen : List String} {run run' : Run}
    (ran : ours.foldlM (checkUnseen environment seen) run = .ok run') :
    whole payment run' = whole payment run := by
  refine foldlM_part (fun other here s s' step => ?_) ran
  have memOther := (mem_listForProvider provider range (sub here)).1
  have differ : other ≠ payment := fun same => missing (same ▸ here)
  exact checkUnseen_other environment (Payments.ids_ne memOther mem differ)
    (Payments.transactionIds_ne memOther mem differ) step

/-- A payment with a record is not asked about. -/
theorem second_pass_seen {payment : Payment} (mem : payment ∈ payments.rows)
    {theirs : List ProviderPaymentRecord} (some : recordsOf provider payment theirs ≠ [])
    {run run' : Run}
    (ran : (listForProvider provider payments range).foldlM
      (checkUnseen environment (theirs.map fun record => record.providerReference)) run = .ok run') :
    whole payment run' = whole payment run := by
  obtain ⟨record, here⟩ := List.exists_mem_of_ne_nil _ some
  obtain ⟨inTheirs, own⟩ := List.mem_filter.mp here
  simp only [Bool.and_eq_true, beq_iff_eq] at own
  refine foldlM_part (fun other memOther s s' step => ?_) ran
  by_cases same : other = payment
  · subst same
    unfold checkUnseen at step
    rw [own.2] at step
    have seen : (theirs.map fun r => r.providerReference).contains record.providerReference = true :=
      List.contains_iff_mem.mpr (List.mem_map_of_mem inTheirs)
    simp only [seen, Bool.or_true, if_true] at step
    cases step
    rfl
  · have memOther := (mem_listForProvider provider range memOther).1
    exact checkUnseen_other environment (Payments.ids_ne memOther mem same)
      (Payments.transactionIds_ne memOther mem same) step

theorem checkUnseen_length {payment : Payment} {seen : List String} {run run' : Run}
    (ran : checkUnseen environment seen run payment = .ok run') :
    (itemsOn payment run'.found).length ≤ (itemsOn payment run.found).length + 1 := by
  unfold checkUnseen askAbout at ran
  split at ran
  · cases ran
    omega
  · split_ifs at ran with skip uncredited
    · cases ran
      omega
    · cases ran
      omega
    · dsimp only at ran
      split at ran
      · cases ran
        exact compare_length environment payment _ run
      · split_ifs at ran
        cases ran
        simp

/-- What the second loop does to one payment it does in that payment's turn. -/
theorem second_pass_turn {payment : Payment} (listed : payment ∈ listForProvider provider payments range)
    {seen : List String} {run run' : Run}
    (ran : (listForProvider provider payments range).foldlM (checkUnseen environment seen) run =
      .ok run') :
    ∃ s s', whole payment s = whole payment run ∧ checkUnseen environment seen s payment = .ok s' ∧
      whole payment run' = whole payment s' := by
  have mem := (mem_listForProvider provider range listed).1
  obtain ⟨before, after, split⟩ := List.append_of_mem listed
  have distinct : (listForProvider provider payments range).Nodup :=
    listForProvider_nodup provider range
  rw [split] at ran distinct
  have sub : ∀ x, x ∈ before ∨ x ∈ after → x ∈ listForProvider provider payments range := by
    intro x here
    rw [split]
    simp only [List.mem_append, List.mem_cons]
    tauto
  rw [List.nodup_append, List.nodup_cons] at distinct
  rw [List.foldlM_append] at ran
  obtain ⟨s, first, ran⟩ := bind_eq_ok.mp ran
  rw [List.foldlM_cons] at ran
  obtain ⟨s', own, last⟩ := bind_eq_ok.mp ran
  refine ⟨s, s', ?_, own, ?_⟩
  · exact second_pass_others environment provider range mem (fun x here => sub x (.inl here))
      (fun here => distinct.2.2 _ here _ List.mem_cons_self rfl) first
  · exact second_pass_others environment provider range mem (fun x here => sub x (.inr here))
      distinct.2.1.1 last

/-- A payment without a record is asked about once at most. -/
theorem second_pass_length {payment : Payment} (mem : payment ∈ payments.rows) {seen : List String}
    {run run' : Run}
    (ran : (listForProvider provider payments range).foldlM (checkUnseen environment seen) run =
      .ok run') :
    (itemsOn payment run'.found).length ≤ (itemsOn payment run.found).length + 1 := by
  have lengths : ∀ s s' : Run, whole payment s' = whole payment s →
      (itemsOn payment s'.found).length = (itemsOn payment s.found).length :=
    fun s s' same => congrArg (fun own => own.2.2.length) same
  by_cases listed : payment ∈ listForProvider provider payments range
  · obtain ⟨s, s', before, own, after⟩ := second_pass_turn environment provider range listed ran
    have one := checkUnseen_length environment own
    rw [lengths _ _ before] at one
    rw [lengths _ _ after]
    exact one
  · have same := lengths _ _ (second_pass_others environment provider range mem (fun _ here => here)
      listed ran)
    omega

end

/-! ## The records of one payment, one after another -/

section

variable (environment : Environment) {payment : Payment}

/-- All the records of a payment, on its own part. -/
def compareAll (payment : Payment) (records : List ProviderPaymentRecord)
    (own : Transaction × Nat × List ReconciliationItemStatus) :
    Transaction × Nat × List ReconciliationItemStatus :=
  records.foldl (compareOwn environment payment) own

/-- On a credited payment every record that does not agree makes an open item. -/
theorem compareAll_credited {transaction : Transaction}
    (credited : CREDITED transaction.status = true) (records : List ProviderPaymentRecord)
    (attempts : Nat) (items : List ReconciliationItemStatus) :
    compareAll environment payment records (transaction, attempts, items) =
      (transaction, attempts,
        items ++ (records.filter fun record => !agrees payment record).map fun _ => .open) := by
  induction records generalizing items with
  | nil => simp [compareAll]
  | cons record records ih =>
    change compareAll environment payment records (compareOwn environment payment _ record) = _
    cases agreed : agrees payment record with
    | true => simp [compareOwn, outcome, credited, agreed, ih]
    | false => simp [compareOwn, outcome, credited, agreed, ih]

/-- Records that were not collected say nothing of a payment that is not credited. -/
theorem compareAll_uncollected {transaction : Transaction}
    (uncredited : CREDITED transaction.status = false) (attempts : Nat)
    (items : List ReconciliationItemStatus) {records : List ProviderPaymentRecord}
    (none : ∀ record ∈ records, COLLECTED record.status = false) :
    compareAll environment payment records (transaction, attempts, items) =
      (transaction, attempts, items) := by
  induction records with
  | nil => rfl
  | cons record records ih =>
    change compareAll environment payment records (compareOwn environment payment _ record) = _
    have same : compareOwn environment payment (transaction, attempts, items) record =
        (transaction, attempts, items) := by
      simp [compareOwn, outcome, uncredited, none record List.mem_cons_self]
    rw [same]
    exact ih fun r mem => none r (List.mem_cons_of_mem _ mem)

theorem compareAll_length (records : List ProviderPaymentRecord)
    (own : Transaction × Nat × List ReconciliationItemStatus) :
    own.2.2.length ≤ (compareAll environment payment records own).2.2.length := by
  induction records generalizing own with
  | nil => exact le_refl _
  | cons record records ih =>
    refine le_trans ?_ (ih _)
    simp [compareOwn]

/-- The first collected record of an uncredited payment makes an item. -/
theorem compareAll_collected {transaction : Transaction}
    (uncredited : CREDITED transaction.status = false) (attempts : Nat)
    (items : List ReconciliationItemStatus) {records : List ProviderPaymentRecord}
    {record : ProviderPaymentRecord} (mem : record ∈ records)
    (collected : COLLECTED record.status = true) :
    items.length + 1 ≤
      (compareAll environment payment records (transaction, attempts, items)).2.2.length := by
  induction records with
  | nil => cases mem
  | cons first records ih =>
    change _ ≤ (compareAll environment payment records
      (compareOwn environment payment _ first)).2.2.length
    cases here : COLLECTED first.status with
    | true =>
      refine le_trans ?_ (compareAll_length environment _ _)
      simp only [compareOwn, outcome, uncredited, here, Bool.not_true, Bool.false_eq_true, if_false]
      split_ifs <;> simp
    | false =>
      have same : compareOwn environment payment (transaction, attempts, items) first =
          (transaction, attempts, items) := by
        simp [compareOwn, outcome, uncredited, here]
      rw [same]
      obtain _ | ⟨_, mem⟩ := mem
      · rw [here] at collected
        cases collected
      · exact ih mem

/-- An uncredited payment stays without a further item exactly while nothing was collected. -/
theorem compareAll_quiet {transaction : Transaction}
    (uncredited : CREDITED transaction.status = false) (attempts : Nat)
    (items : List ReconciliationItemStatus) (records : List ProviderPaymentRecord) :
    (compareAll environment payment records (transaction, attempts, items)).2.2.length ≤
        items.length ↔ ∀ record ∈ records, COLLECTED record.status = false := by
  constructor
  · intro short record mem
    by_contra collected
    have long : _ ≤ (compareAll environment payment records _).2.2.length :=
      compareAll_collected environment uncredited attempts items mem
        (Bool.eq_true_of_not_eq_false collected)
    omega
  · intro none
    rw [compareAll_uncollected environment uncredited attempts items none]

theorem compareAll_dropWhile {transaction : Transaction}
    (uncredited : CREDITED transaction.status = false) (attempts : Nat)
    (items : List ReconciliationItemStatus) (records : List ProviderPaymentRecord) :
    compareAll environment payment records (transaction, attempts, items) =
      compareAll environment payment (records.dropWhile fun record => !COLLECTED record.status)
        (transaction, attempts, items) := by
  conv_lhs => rw [← List.takeWhile_append_dropWhile (p := fun r => !COLLECTED r.status)
    (l := records)]
  unfold compareAll
  rw [List.foldl_append]
  congr 1
  refine compareAll_uncollected environment uncredited attempts items fun record mem => ?_
  simpa using List.mem_takeWhile_imp mem

/-- The claim about one payment, on its own part. -/
def SoundOwn (payment : Payment) (records : List ProviderPaymentRecord)
    (own : Transaction × Nat × List ReconciliationItemStatus) : Prop :=
  ((∃ record ∈ records, agrees payment record = true) → CREDITED own.1.status = true →
    .open ∉ own.2.2) ∧ own.2.2.length ≤ 1

theorem soundOwn_credited {transaction : Transaction}
    (credited : CREDITED transaction.status = true) (attempts : Nat)
    (records : List ProviderPaymentRecord) :
    SoundOwn payment records (compareAll environment payment records (transaction, attempts, [])) ↔
      (∀ record ∈ records, agrees payment record = true) ∨ records.length ≤ 1 := by
  rw [compareAll_credited environment credited]
  unfold SoundOwn
  simp only [List.nil_append, List.length_map, credited, true_implies, List.mem_map,
    and_true, not_exists]
  constructor
  · rintro ⟨quiet, once⟩
    by_cases some : ∃ record ∈ records, agrees payment record = true
    · refine .inl fun record mem => ?_
      by_contra differs
      exact quiet some record (List.mem_filter.mpr ⟨mem, by simpa using differs⟩)
    · have all : (records.filter fun record => !agrees payment record) = records := by
        refine List.filter_eq_self.mpr fun record mem => ?_
        by_contra agreed
        exact some ⟨record, mem, by simpa using agreed⟩
      exact .inr (all ▸ once)
  · rintro (agreed | short)
    · have none : (records.filter fun record => !agrees payment record) = [] := by
        refine List.filter_eq_nil_iff.mpr fun record mem => ?_
        simp [agreed record mem]
      rw [none]
      exact ⟨fun _ record here => absurd here List.not_mem_nil, Nat.zero_le 1⟩
    · refine ⟨?_, le_trans (List.length_filter_le ..) short⟩
      rintro ⟨record, mem, agreed⟩ other here
      obtain ⟨memOther, differs⟩ := List.mem_filter.mp here
      obtain ⟨single, rfl⟩ := List.length_eq_one_iff.mp
        (le_antisymm short (List.length_pos_of_mem mem))
      obtain rfl := List.mem_singleton.mp mem
      obtain rfl := List.mem_singleton.mp memOther
      simp [agreed] at differs

/-- After an item on a payment that is still not credited. -/
theorem soundOwn_again {transaction : Transaction}
    (uncredited : CREDITED transaction.status = false) (attempts : Nat)
    (records later : List ProviderPaymentRecord) :
    SoundOwn payment records (compareAll environment payment later (transaction, attempts, [.open])) ↔
      ∀ record ∈ later, COLLECTED record.status = false := by
  constructor
  · exact fun sound => (compareAll_quiet environment uncredited attempts [.open] later).mp sound.2
  · intro none
    rw [compareAll_uncollected environment uncredited attempts _ none]
    refine ⟨fun _ credited => ?_, le_refl 1⟩
    rw [uncredited] at credited
    cases credited

/-- After the run has settled the payment. -/
theorem soundOwn_settled {transaction : Transaction}
    (credited : CREDITED transaction.status = true) (attempts : Nat)
    (records later : List ProviderPaymentRecord) :
    SoundOwn payment records
        (compareAll environment payment later (transaction, attempts, [.autoResolved])) ↔
      ∀ record ∈ later, agrees payment record = true := by
  rw [compareAll_credited environment credited]
  constructor
  · rintro ⟨-, once⟩ record mem
    by_contra differs
    have bad : record ∈ later.filter fun record => !agrees payment record :=
      List.mem_filter.mpr ⟨mem, by simpa using differs⟩
    have more := List.length_pos_of_mem bad
    simp only [List.length_append, List.length_singleton, List.length_map] at once
    omega
  · intro agreed
    have none : (later.filter fun record => !agrees payment record) = [] :=
      List.filter_eq_nil_iff.mpr fun record mem => by simp [agreed record mem]
    rw [none]
    exact ⟨fun _ _ => by simp, le_refl 1⟩

theorem soundOwn_uncredited {transaction : Transaction}
    (uncredited : CREDITED transaction.status = false) (records : List ProviderPaymentRecord) :
    SoundOwn payment records (compareAll environment payment records (transaction, 0, [])) ↔
      Agreeable environment payment transaction.status records := by
  rw [compareAll_dropWhile environment uncredited]
  unfold Agreeable
  simp only [uncredited, Bool.false_eq_true, if_false]
  cases collected : records.dropWhile fun record => !COLLECTED record.status with
  | nil =>
    simp only [iff_true]
    exact ⟨fun _ _ => List.not_mem_nil, Nat.zero_le 1⟩
  | cons first later =>
    have here : COLLECTED first.status = true := by
      have head := List.head_dropWhile_not (fun record : ProviderPaymentRecord =>
        !COLLECTED record.status) (l := records) (by rw [collected]; exact List.cons_ne_nil _ _)
      simpa [collected] using head
    dsimp only
    change SoundOwn payment records (compareAll environment payment later
      (compareOwn environment payment (transaction, 0, []) first)) ↔ _
    cases attempt : OPEN_PAYMENT transaction.status && agrees payment first with
    | false =>
      have one : compareOwn environment payment (transaction, 0, []) first =
          (transaction, 0, [.open]) := by
        simp [compareOwn, outcome, uncredited, here, attempt]
      rw [one, Bool.false_and, if_neg Bool.false_ne_true]
      exact soundOwn_again environment uncredited 0 records later
    | true =>
      -- The run tries to settle it on this record.
      rw [Bool.true_and]
      cases settled : CREDITED (environment.settle payment.id 0 transaction.status) with
      | true =>
        have one : compareOwn environment payment (transaction, 0, []) first =
            ({ transaction with status := environment.settle payment.id 0 transaction.status }, 1,
              [.autoResolved]) := by
          simp [compareOwn, outcome, uncredited, here, attempt, settled]
        rw [one, if_pos rfl]
        exact soundOwn_settled environment settled 1 records later
      | false =>
        have one : compareOwn environment payment (transaction, 0, []) first =
            ({ transaction with status := environment.settle payment.id 0 transaction.status }, 1,
              [.open]) := by
          simp [compareOwn, outcome, uncredited, here, attempt, settled]
        rw [one, if_neg Bool.false_ne_true]
        exact soundOwn_again environment settled 1 records later

end

/-! ## Every run -/

theorem sound_iff_own {provider : String} {payment : Payment}
    {theirs : List ProviderPaymentRecord} {run : Run} :
    Sound provider payment theirs run ↔
      SoundOwn payment (recordsOf provider payment theirs) (part payment run) := by
  unfold SoundOwn part
  simp only [List.length_map, List.mem_map, not_exists, not_and]
  exact ⟨fun sound => ⟨sound.noFalseAlarm, sound.once⟩, fun own => ⟨own.1, own.2⟩⟩

theorem agreeable_nil (environment : Environment) (payment : Payment)
    (status : TransactionStatus) : Agreeable environment payment status [] := by
  unfold Agreeable
  split_ifs
  · exact .inr (Nat.zero_le 1)
  · trivial

/-- In every run that completes, whatever the provider lists and whatever comes of its settlements:
a payment is reported soundly exactly when its records are agreeable. -/
theorem sound_iff_agreeable (environment : Environment) (provider : String) (payments : Payments)
    (range : TimeRange) (transactions : Uuid → Transaction) (theirs : List ProviderPaymentRecord)
    (after : Run)
    (ran : reconcilePayments environment provider payments range theirs (.start transactions) =
      .ok after)
    (payment : Payment) (mem : payment ∈ payments.rows) :
    Sound provider payment theirs after ↔
      Agreeable environment payment (transactions payment.transactionId).status
        (recordsOf provider payment theirs) := by
  unfold reconcilePayments at ran
  have first := first_pass environment provider range mem theirs (.start transactions)
  have start : part payment (.start transactions) =
      (transactions payment.transactionId, 0, []) := rfl
  rw [start] at first
  by_cases records : recordsOf provider payment theirs = []
  · -- The payment is at most asked about.
    rw [records]
    refine iff_of_true ⟨?_, ?_⟩ (agreeable_nil _ _ _)
    · rintro ⟨record, mem, -⟩
      rw [records] at mem
      cases mem
    · have nothing : (itemsOn payment
          (theirs.foldl (compareRecord environment provider payments range)
            (.start transactions)).found).length = 0 := by
        rw [records] at first
        simpa [part] using congrArg (fun own => own.2.2.length) first
      have one := second_pass_length environment provider range mem ran
      omega
  · rw [sound_iff_own, part_congr (second_pass_seen environment provider range mem records ran), first]
    cases credited : CREDITED (transactions payment.transactionId).status with
    | true =>
      unfold Agreeable
      rw [if_pos credited]
      exact soundOwn_credited environment credited 0 (recordsOf provider payment theirs)
    | false => exact soundOwn_uncredited environment credited _

/-! ### A payment with two attempts -/

/-- A payment of 5000 kobo under the reference `trx_1`. -/
def topUp : Payment where
  id := 1
  transactionId := 2
  owner := .user 3
  walletId := 4
  provider := "flutterwave"
  providerReference := some "trx_1"
  amount := 5000
  currency := "NGN"
  fxQuoteId := none

def credited : Transaction where
  id := 2
  reference := "trx_1"
  type := .payment
  status := .successful
  owner := .user 3
  amount := 5000
  currency := "NGN"
  createdAt := 0

def onePayment : Payments :=
  ⟨[topUp], List.pairwise_singleton .., List.pairwise_singleton .., List.pairwise_singleton ..⟩

/-- Settling changes nothing, and the provider knows of no other payment. -/
def noSettlement : Environment :=
  ⟨fun _ _ status => status, fun _ _ => .error (.provider ⟨"HTTP 404: not found", false, some 404⟩)⟩

/-- An attempt to pay `trx_1`. -/
def attemptWith (status : ProviderRecordStatus) : ProviderPaymentRecord :=
  ⟨"trx_1", some "trx_1", status, 5000, "NGN", 0⟩

/-- The successful attempt alone. -/
theorem sound_of_one_attempt : ∃ after,
    reconcilePayments noSettlement "flutterwave" onePayment ⟨0, 1⟩ [attemptWith .successful]
      (.start fun _ => credited) = .ok after ∧
    Sound "flutterwave" topUp [attemptWith .successful] after := by
  refine ⟨_, rfl, ?_⟩
  refine (sound_iff_agreeable noSettlement "flutterwave" onePayment ⟨0, 1⟩ (fun _ => credited)
    [attemptWith .successful] _ rfl topUp (List.mem_singleton_self _)).mpr ?_
  exact .inl (by decide)

/-- A failed attempt before the successful one: credited without payment, says the run. -/
theorem unsound_after_failed_attempt : ∃ after,
    reconcilePayments noSettlement "flutterwave" onePayment ⟨0, 1⟩
      [attemptWith .failed, attemptWith .successful] (.start fun _ => credited) = .ok after ∧
    ¬ Sound "flutterwave" topUp [attemptWith .failed, attemptWith .successful] after := by
  refine ⟨_, rfl, fun sound => ?_⟩
  refine sound.noFalseAlarm ⟨attemptWith .successful, by decide, by decide⟩ rfl _
    List.mem_cons_self rfl

end Finstack.Reconciliation
