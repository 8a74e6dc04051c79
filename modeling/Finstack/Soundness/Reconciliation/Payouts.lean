import Finstack.Model.Reconciliation.Payouts

/-! # What a run says about a payout that is up to date

The status of a payout is a function of the provider's reports: the first one that is not pending
settles it, and after a success a reversal still counts. `no_open_item_iff` compares the last report
with that.
-/

namespace Finstack.Reconciliation

open PaymentProviders PayoutSubmission

/-! ## The course of a payout -/

/-- What a report does to the status. -/
def course (answer : ProviderPayoutStatus) : TransactionStatus → TransactionStatus
  | .processing =>
    match answer with
    | .pending => .processing
    | .successful => .successful
    | .failed | .reversed => .failed
  | .successful => if answer = .reversed then .reversed else .successful
  | status => status

/-- A payout that was never sent is still processing. -/
def Sent (row : Row) : Prop := row.submittedAt = none → row.status = .processing

/-- A call applies the report to the status, and has sent the payout. -/
theorem submit_status (now : Nat) (answer : ProviderPayoutStatus) {row : Row} (sent : Sent row) :
    (submit now answer row).status = course answer row.status ∧ Sent (submit now answer row) := by
  obtain ⟨status, submittedAt⟩ := row
  cases submittedAt with
  | none =>
    obtain rfl : status = .processing := sent rfl
    cases answer <;> exact ⟨rfl, fun never => by cases never⟩
  | some t =>
    cases answer <;> cases status <;> exact ⟨rfl, fun never => by cases never⟩

/-- The reports alone. -/
abbrev statuses (reports : List (Nat × ProviderPayoutStatus)) : List ProviderPayoutStatus :=
  reports.map Prod.snd

theorem submitAll_status (reports : List (Nat × ProviderPayoutStatus)) :
    (submitAll reports).status =
        (statuses reports).foldl (fun status answer => course answer status) .processing ∧
      Sent (submitAll reports) := by
  have general : ∀ row, Sent row →
      (reports.foldl (fun row report => submit report.1 report.2 row) row).status =
          (statuses reports).foldl (fun status answer => course answer status) row.status ∧
        Sent (reports.foldl (fun row report => submit report.1 report.2 row) row) := by
    induction reports with
    | nil => exact fun row sent => ⟨rfl, sent⟩
    | cons report reports ih =>
      intro row sent
      obtain ⟨status, sent⟩ := submit_status report.1 report.2 sent
      have rest := ih _ sent
      rw [status] at rest
      exact rest
  exact general requested fun _ => rfl

/-! ## The outcome of the reports -/

/-- How the reports settle a payout: by the first that is not pending, unless a success is reversed
later. -/
def reportedOutcome (reports : List ProviderPayoutStatus) : ProviderPayoutStatus :=
  match reports.dropWhile (· = .pending) with
  | [] => .pending
  | .successful :: later => if .reversed ∈ later then .reversed else .successful
  | first :: _ => first

theorem course_final {status : TransactionStatus}
    (final : status = .failed ∨ status = .reversed) (reports : List ProviderPayoutStatus) :
    reports.foldl (fun status answer => course answer status) status = status := by
  induction reports with
  | nil => rfl
  | cons answer reports ih => obtain rfl | rfl := final <;> exact ih

theorem course_successful (reports : List ProviderPayoutStatus) :
    reports.foldl (fun status answer => course answer status) .successful =
      if .reversed ∈ reports then .reversed else .successful := by
  induction reports with
  | nil => rfl
  | cons answer reports ih =>
    rw [List.foldl_cons]
    by_cases reversed : answer = .reversed
    · subst reversed
      rw [if_pos List.mem_cons_self]
      exact course_final (by decide) reports
    · have stays : course answer .successful = .successful := by simp [course, reversed]
      simp only [stays, ih, List.mem_cons, Ne.symm reversed, false_or]

/-- Without a reversal that comes first, the status is the one that agrees with the outcome. -/
theorem agrees_reportedOutcome {reports : List ProviderPayoutStatus}
    (first : ∀ later, reports.dropWhile (· = .pending) ≠ .reversed :: later) :
    PAYOUT_AGREES (reports.foldl (fun status answer => course answer status) .processing) =
      some (reportedOutcome reports) := by
  induction reports with
  | nil => rfl
  | cons answer reports ih =>
    cases answer with
    | pending => exact ih first
    | reversed => exact absurd rfl (first reports)
    | failed =>
      rw [List.foldl_cons]
      rw [show course .failed .processing = .failed from rfl, course_final (by decide) reports]
      rfl
    | successful =>
      rw [List.foldl_cons]
      rw [show course .successful .processing = .successful from rfl, course_successful]
      change _ = some (if .reversed ∈ reports then _ else _)
      split_ifs <;> rfl

/-- The same report again changes nothing. -/
theorem course_again (answer : ProviderPayoutStatus) (status : TransactionStatus) :
    course answer (course answer status) = course answer status := by
  cases answer <;> cases status <;> rfl

/-! ## The comparison -/

def openItems (found : List NewItem) : List NewItem :=
  found.filter fun item => item.savedStatus = .open

theorem sync_status (environment : PayoutEnvironment) {payout : Payout} {run : PayoutRun}
    {answer : ProviderPayoutStatus} (sent : Sent (run.rows payout.id))
    (again : course answer (run.statusOf payout) = run.statusOf payout)
    (truthful : ∀ attempt now told, environment.report payout.id attempt = some (now, told) →
      told = answer) :
    (run.sync environment payout).statusOf payout = run.statusOf payout ∧
      (run.sync environment payout).found = run.found := by
  unfold PayoutRun.sync
  cases told : environment.report payout.id (run.syncs payout.id) with
  | none => exact ⟨rfl, rfl⟩
  | some report =>
    obtain ⟨now, told'⟩ := report
    obtain rfl := truthful _ _ _ told
    refine ⟨?_, rfl⟩
    have status := (submit_status now told' sent).1
    simp only [PayoutRun.statusOf, Function.update_self] at again ⊢
    rw [status, again]

theorem openItems_push (run : PayoutRun) (item : NewItem) (here : item.savedStatus = .open) :
    openItems (run.push item).found = openItems run.found ++ [item] := by
  simp [openItems, PayoutRun.push, List.filter_append, here]

/-- The status of a payout after reports that end with `answer` is settled as far as it goes. -/
theorem course_last {reports : List (Nat × ProviderPayoutStatus)} {answer : ProviderPayoutStatus}
    (last : (statuses reports).getLast? = some answer) :
    course answer (submitAll reports).status = (submitAll reports).status := by
  rw [(submitAll_status reports).1]
  obtain ⟨before, whole⟩ := List.getLast?_eq_some_iff.mp last
  rw [whole, List.foldl_append]
  exact course_again answer _

/-- A run that compares a payout with a record of its amount and currency and of the status the
provider reported last makes no open item exactly when that status is what the reports settled the
payout with. Where the payout is settled by a reversal while it is processing nothing is said. -/
theorem no_open_item_iff (environment : PayoutEnvironment) (payout : Payout)
    (reports : List (Nat × ProviderPayoutStatus)) (answer : ProviderPayoutStatus)
    (last : (statuses reports).getLast? = some answer)
    (first : ∀ later, (statuses reports).dropWhile (· = .pending) ≠ .reversed :: later)
    (truthful : ∀ attempt now told, environment.report payout.id attempt = some (now, told) →
      told = answer)
    (run : PayoutRun) (synced : run.rows payout.id = submitAll reports)
    (providerReference : Value) (createdAt : Nat) :
    ∃ after, comparePayout environment payout
        (some ⟨payout.reference, providerReference, answer, payout.amount, payout.currency,
          createdAt⟩) run = .ok after ∧
      (openItems after.found = openItems run.found ↔ answer = reportedOutcome (statuses reports)) := by
  refine ⟨_, rfl, ?_⟩
  have status : run.statusOf payout = (submitAll reports).status := by
    unfold PayoutRun.statusOf
    rw [synced]
  have agrees : PAYOUT_AGREES (run.statusOf payout) = some (reportedOutcome (statuses reports)) := by
    rw [status, (submitAll_status reports).1]
    exact agrees_reportedOutcome first
  have sent : Sent (run.rows payout.id) := by
    rw [synced]
    exact (submitAll_status reports).2
  have again : course answer (run.statusOf payout) = run.statusOf payout := by
    rw [status]
    exact course_last last
  obtain ⟨same, found⟩ := sync_status environment sent again truthful
  unfold compareWithRecord
  simp only [bne_self_eq_false, Bool.or_false, Bool.false_eq_true, if_false, same, agrees,
    Option.some.injEq]
  by_cases settled : reportedOutcome (statuses reports) = answer
  · rw [if_pos settled]
    exact iff_of_true rfl settled.symm
  · rw [if_neg settled, if_neg settled, openItems_push _ _ rfl, found]
    refine iff_of_false (fun none => ?_) (fun same => settled same.symm)
    simpa using congrArg List.length none

/-! ### A payout of 5000 kobo -/

def withdrawal : Payout where
  id := 1
  reference := "pyt_1"
  transactionId := 2
  owner := .user 3
  walletId := 4
  destinationId := 5
  provider := "paystack"
  amount := 5000
  currency := "NGN"
  createdAt := 0

/-- The provider reports the same whenever it is asked. -/
def reporting (answer : ProviderPayoutStatus) : PayoutEnvironment :=
  ⟨fun _ _ => some (2, answer), fun _ => .ok none⟩

def runAfter (reports : List (Nat × ProviderPayoutStatus)) : PayoutRun :=
  ⟨fun _ => submitAll reports, fun _ => 0, []⟩

/-- Pending, then successful. -/
theorem no_open_item_when_successful : ∃ after,
    comparePayout (reporting .successful) withdrawal
        (some ⟨"pyt_1", none, .successful, 5000, "NGN", 0⟩)
        (runAfter [(0, .pending), (1, .successful)]) = .ok after ∧
      openItems after.found = [] := by
  obtain ⟨after, compared, none⟩ := no_open_item_iff (reporting .successful) withdrawal
    [(0, .pending), (1, .successful)] .successful rfl (fun later same => by cases same)
    (fun _ _ told same => by cases same; rfl) (runAfter [(0, .pending), (1, .successful)]) rfl none 0
  exact ⟨after, compared, none.mpr rfl⟩

/-- A provider that reports a success and then a failure leaves it to a person. -/
theorem open_item_when_contradicted : ∃ after,
    comparePayout (reporting .failed) withdrawal (some ⟨"pyt_1", none, .failed, 5000, "NGN", 0⟩)
        (runAfter [(0, .successful), (1, .failed)]) = .ok after ∧
      openItems after.found ≠ [] := by
  refine ⟨_, rfl, fun none => ?_⟩
  cases none

end Finstack.Reconciliation
