import Finstack.Model.Reconciliation.Items

/-! # Reconciling payouts

`PayoutsService.submit` taken to its end with what the provider reports, and `comparePayout` against
a record of the provider's. When the provider is asked again by the run, what it reports is the
environment's.
-/

namespace Finstack.Reconciliation

open PaymentProviders PayoutSubmission

/-! ## A submission taken to its end -/

/-- The switch on the reported status: a reversed payout is failed if it is still processing, and
reversed if it is successful. -/
def settleReported (answer : ProviderPayoutStatus) (row : Row) : Row :=
  let settled := settle answer row
  match afterSettle answer with
  | .reverse => reverse settled
  | _ => settled

/-- One call of `submit` in which the provider reports this status, for a transfer that it knows or
one that it is sent now. -/
def submit (now : Nat) (answer : ProviderPayoutStatus) (row : Row) : Row :=
  match afterView row.status row.submittedAt with
  | .find _ _ => settleReported answer row
  | .noResult .processing _ =>
    match claimSubmission now row with
    | some claimed => settleReported answer claimed
    | none => row
  | _ => row

/-- A payout as `createWithHold` leaves it. -/
def requested : Row := ⟨.processing, none⟩

/-- The reports of the provider, each applied to the end, with the times of the calls. -/
def submitAll (reports : List (Nat × ProviderPayoutStatus)) : Row :=
  reports.foldl (fun row report => submit report.1 report.2 row) requested

/-! ## The comparison -/

/-- Which provider payout status each FinStack payout status agrees with. -/
def PAYOUT_AGREES : TransactionStatus → Option ProviderPayoutStatus
  | .processing => some .pending
  | .successful => some .successful
  | .failed => some .failed
  | .reversed => some .reversed
  | _ => none

/-- What is not decided by the run itself. -/
structure PayoutEnvironment where
  /-- What the n-th sync of a payout is told, and when; none where it throws. -/
  report : (payoutId : Uuid) → (attempt : Nat) → Option (Nat × ProviderPayoutStatus)
  find : (reference : String) → Except Thrown (Option PayoutResult)

/-- The state of a run. -/
structure PayoutRun where
  rows : Uuid → Row
  /-- How often the run has synced a payout. -/
  syncs : Uuid → Nat
  found : List NewItem

def PayoutRun.push (run : PayoutRun) (item : NewItem) : PayoutRun :=
  { run with found := run.found ++ [item] }

def PayoutRun.statusOf (run : PayoutRun) (payout : Payout) : TransactionStatus :=
  (run.rows payout.id).status

section

variable (environment : PayoutEnvironment)

/-- `sync`, whose exceptions are ignored. -/
def PayoutRun.sync (payout : Payout) (run : PayoutRun) : PayoutRun :=
  let asked := { run with
    syncs := Function.update run.syncs payout.id (run.syncs payout.id + 1) }
  match environment.report payout.id (run.syncs payout.id) with
  | none => asked
  | some (now, answer) =>
    { asked with
      rows := Function.update run.rows payout.id (submit now answer (run.rows payout.id)) }

def payoutItem (payout : Payout) (record : Option ProviderPayoutRecord) (status : TransactionStatus)
    (issue : ReconciliationIssue) (saved : Option ReconciliationItemStatus) : NewItem where
  kind := .payout
  issue
  reference := payout.reference
  targetId := some payout.id
  finstack := some (.payout status payout.amount payout.currency)
  provider := record.map ProviderView.payout
  status := saved

/-- `comparePayout` with a record. -/
def compareWithRecord (payout : Payout) (record : ProviderPayoutRecord) (run : PayoutRun) :
    PayoutRun :=
  let item := payoutItem payout (some record)
  if record.amount != payout.amount || record.currency != payout.currency then
    run.push (item (run.statusOf payout) .amountMismatch none)
  else if PAYOUT_AGREES (run.statusOf payout) = some record.status then run
  else
    -- The provider moved on without telling us: sync the normal way.
    let synced := run.sync environment payout
    if PAYOUT_AGREES (synced.statusOf payout) = some record.status then
      synced.push (item (synced.statusOf payout) .lateSettlement (some .autoResolved))
    else synced.push (item (synced.statusOf payout) .statusMismatch none)

/-- The record of a payout that the provider was asked about. -/
def recordOf (payout : Payout) (result : PayoutResult) : ProviderPayoutRecord where
  reference := payout.reference
  providerReference := result.providerReference
  status := result.status
  amount := payout.amount
  currency := payout.currency
  createdAt := payout.createdAt

def comparePayout (payout : Payout) (record : Option ProviderPayoutRecord) (run : PayoutRun) :
    Except Thrown PayoutRun :=
  match record with
  | some record => .ok (compareWithRecord environment payout record run)
  | none =>
    -- The provider has no record of a payout we sent.
    let status := run.statusOf payout
    let mismatch := payoutItem payout none status .statusMismatch none
    match status with
    | .failed => .ok run
    | .processing => do
      -- Never arrived: sync resends it once that is safe.
      let synced := run.sync environment payout
      match ← environment.find payout.reference with
      | some result => return compareWithRecord environment payout (recordOf payout result) synced
      | none => return synced.push mismatch
    | _ => .ok (run.push mismatch)

end

end Finstack.Reconciliation
