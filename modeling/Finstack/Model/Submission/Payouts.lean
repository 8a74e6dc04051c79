import Finstack.Foundation.Clocked
import Finstack.Foundation.Submission
import Finstack.Model.Tables

/-! # Submitting payouts

`PayoutsService.submit` as a party of a protocol: any number of calls (from requests, webhooks,
syncs and the sweep) read the payout, ask the provider, claim the submission and send, and the
provider answers when it likes. What a provider has been sent it may accept while the call lasts,
whether the call is still there or not. Every other step is one read or one write of the code.
-/

namespace Finstack.PayoutSubmission

open Foundation
open Foundation.Submission (Request)

def RESUBMIT_AFTER_MS : Nat := 5 * 60 * 1000

/-- The statuses a provider reports. -/
inductive PayoutResultStatus where
  | pending
  | successful
  | failed
  | reversed
deriving DecidableEq, Repr

/-- The columns of a payout and its transaction that `submit` works on. -/
structure Row where
  status : TransactionStatus
  submittedAt : Option Nat
deriving DecidableEq, Repr

/-- A transfer the provider has accepted under a payout's reference. -/
structure Transfer where
  /-- The provider has itself reported it as failed or reversed. -/
  reported : Bool
deriving DecidableEq, Repr

/-- Where a call is, with what it has read. -/
inductive Pc where
  /-- `view`: the transaction first. -/
  | view
  /-- `view`: the payout again, after the status. -/
  | viewed (status : TransactionStatus)
  | find (status : TransactionStatus) (submittedAt : Nat)
  /-- `result` is null. -/
  | noResult (status : TransactionStatus) (submittedAt : Option Nat)
  /-- The submission is claimed. -/
  | initiate (submittedAt : Option Nat)
  | awaiting (submittedAt : Option Nat)
  /-- Rejected, with no earlier submission seen. -/
  | fail
  | answered (status : PayoutResultStatus)
  /-- After the `fail` of a reversed payout. -/
  | reverse
  | done
deriving DecidableEq, Repr

/-! ## The code of `submit` -/

/-- After `view`: a failed or reversed payout has nothing left to learn. -/
def afterView (status : TransactionStatus) : Option Nat → Pc
  | some submittedAt =>
    if status ≠ .processing ∧ status ≠ .successful then .done else .find status submittedAt
  | none => if status ≠ .processing ∧ status ≠ .successful then .done else .noResult status none

/-- Marks the payout as sent, unless another submission is in flight. -/
def claimSubmission (now : Nat) (row : Row) : Option Row :=
  match row.submittedAt with
  | none => some { row with submittedAt := some now }
  | some t => if t + RESUBMIT_AFTER_MS < now then some { row with submittedAt := some now } else none

/-- The `catch` of `submit`. -/
def onError (retryable : Bool) (submittedAt : Option Nat) : Pc :=
  if ¬ retryable ∧ submittedAt.isNone then .fail else .done

def complete (row : Row) : Row :=
  if row.status ≠ .processing then row else { row with status := .successful }

def fail (row : Row) : Row :=
  if row.status ≠ .processing then row else { row with status := .failed }

def reverse (row : Row) : Row :=
  if row.status ≠ .successful then row else { row with status := .reversed }

/-- The switch on the provider's answer; a reversed payout takes another step. -/
def settle (answer : PayoutResultStatus) (row : Row) : Row :=
  match answer with
  | .successful => complete row
  | .failed | .reversed => fail row
  | .pending => row

def afterSettle : PayoutResultStatus → Pc
  | .reversed => .reverse
  | _ => .done

/-- A transfer after the provider has reported this status of it. -/
def Transfer.report (answer : PayoutResultStatus) (transfer : Transfer) : Transfer where
  reported := transfer.reported || answer = .failed || answer = .reversed

/-! ## Steps of anybody -/

/-- What a step of one call works on. -/
structure Sight where
  pc : Pc
  request : Option Request
  row : Row
  /-- What the provider has accepted. -/
  transfers : List Transfer

/-- One step of a call or of the request it has sent. -/
inductive Act (now : Nat) (s : Sight) : Sight → Prop
  | readTransaction (here : s.pc = .view) : Act now s { s with pc := .viewed s.row.status }
  | readPayout {status : TransactionStatus} (here : s.pc = .viewed status) :
      Act now s { s with pc := afterView status s.row.submittedAt }
  /-- The provider truthfully knows of no transfer. -/
  | findNothing {status : TransactionStatus} {submittedAt : Nat}
      (here : s.pc = .find status submittedAt) (nothing : s.transfers = []) :
      Act now s { s with pc := .noResult status (some submittedAt) }
  | findTransfer {status : TransactionStatus} {submittedAt : Nat} {before after : List Transfer}
      {transfer : Transfer} (answer : PayoutResultStatus) (here : s.pc = .find status submittedAt)
      (known : s.transfers = before ++ transfer :: after) :
      Act now s { s with
        pc := .answered answer
        transfers := before ++ transfer.report answer :: after }
  | findFails {status : TransactionStatus} {submittedAt : Nat} (retryable : Bool)
      (here : s.pc = .find status submittedAt) :
      Act now s { s with pc := onError retryable (some submittedAt) }
  /-- No result for a payout that is no longer processing. -/
  | leave {status : TransactionStatus} {submittedAt : Option Nat}
      (here : s.pc = .noResult status submittedAt) (settled : status ≠ .processing) :
      Act now s { s with pc := .done }
  | claim {submittedAt : Option Nat} {row : Row} (here : s.pc = .noResult .processing submittedAt)
      (granted : claimSubmission now s.row = some row) :
      Act now s { s with pc := .initiate submittedAt, row }
  | claimFails {submittedAt : Option Nat} (here : s.pc = .noResult .processing submittedAt)
      (refused : claimSubmission now s.row = none) : Act now s { s with pc := .done }
  | initiate {submittedAt : Option Nat} (here : s.pc = .initiate submittedAt) :
      Act now s { s with pc := .awaiting submittedAt, request := some .inFlight }
  /-- Each accepted request makes a transfer of its own: the provider is not idempotent. -/
  | accept (sent : s.request = some .inFlight) :
      Act now s { s with request := some .accepted, transfers := ⟨false⟩ :: s.transfers }
  | refuse (sent : s.request = some .inFlight) : Act now s { s with request := some .refused }
  | respond {submittedAt : Option Nat} {before after : List Transfer} {transfer : Transfer}
      (answer : PayoutResultStatus) (here : s.pc = .awaiting submittedAt)
      (accepted : s.request = some .accepted)
      (known : s.transfers = before ++ transfer :: after) :
      Act now s { s with
        pc := .answered answer
        transfers := before ++ transfer.report answer :: after }
  /-- A definite error means that nothing was accepted. -/
  | reject {submittedAt : Option Nat} (here : s.pc = .awaiting submittedAt)
      (refused : s.request = some .refused) : Act now s { s with pc := onError false submittedAt }
  /-- A lost response, a timeout or an outage tells nothing. -/
  | lose {submittedAt : Option Nat} (here : s.pc = .awaiting submittedAt) :
      Act now s { s with pc := onError true submittedAt }
  | failRejected (here : s.pc = .fail) : Act now s { s with pc := .done, row := fail s.row }
  | settle (answer : PayoutResultStatus) (here : s.pc = .answered answer) :
      Act now s { s with pc := afterSettle answer, row := settle answer s.row }
  | reverse (here : s.pc = .reverse) : Act now s { s with pc := .done, row := reverse s.row }
  | crash : Act now s { s with pc := .done }

structure Call where
  start : Nat
  pc : Pc
  request : Option Request
deriving DecidableEq, Repr

/-- A payout from its creation on, with every call that submits it. -/
structure Payout (ι : Type) where
  row : Row
  transfers : List Transfer
  calls : ι → Option Call

variable {ι : Type} [DecidableEq ι]

namespace Payout

/-- The part of a payout that a step of this call works on. -/
def sight (p : Payout ι) (call : Call) : Sight := ⟨call.pc, call.request, p.row, p.transfers⟩

/-- The payout after a step of the call `i`. -/
def put (p : Payout ι) (i : ι) (start : Nat) (s : Sight) : Payout ι where
  row := s.row
  transfers := s.transfers
  calls := Function.update p.calls i (some ⟨start, s.pc, s.request⟩)

/-- A call and its request only act within `span` of the call's start. -/
inductive Move (span now : Nat) (p : Payout ι) : Payout ι → Prop
  | begin {i : ι} (new : p.calls i = none) :
      Move span now p (p.put i now ⟨.view, none, p.row, p.transfers⟩)
  | act {i : ι} {call : Call} {s : Sight} (running : p.calls i = some call)
      (lasts : now < call.start + span) (acts : Act now (p.sight call) s) :
      Move span now p (p.put i call.start s)

def created : Payout ι := ⟨⟨.processing, none⟩, [], fun _ => none⟩

end Payout

/-- Every payout as it was created, and no call yet. -/
def start (now : Nat) : Clocked Uuid (Payout ι) := ⟨now, fun _ => .created⟩

/-- Everything that can happen. -/
def Reaches (span : Nat) : Clocked Uuid (Payout ι) → Clocked Uuid (Payout ι) → Prop :=
  Clocked.Reaches (Payout.Move span)

end Finstack.PayoutSubmission
