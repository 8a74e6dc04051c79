import Finstack.Foundation.Clocked
import Finstack.Foundation.Submission
import Finstack.Model.Tables

/-! # Submitting refunds

`RefundsService.submit` as a party of a protocol, like that of payouts. It is handed a row that was
read before it began: by the request that created it, by a query of webhooks or of the sweep for
processing refunds (and then it waits for its turn in the loop), or by a retry after the status.
So the row may be any version there ever was.
-/

namespace Finstack.RefundSubmission

open Foundation
open Foundation.Submission (Request)

def RESUBMIT_AFTER_MS : Nat := 5 * 60 * 1000

/-- The statuses a provider reports. -/
inductive RefundStatus where
  | pending
  | successful
  | failed
deriving DecidableEq, Repr

/-- The columns of a refund and its transaction that `submit` works on. -/
structure Row where
  status : TransactionStatus
  submittedAt : Option Nat
  /-- The provider numbers the refunds it makes. -/
  providerRefundReference : Option Nat
deriving DecidableEq, Repr

/-- Where a call is, with the refund it was handed. -/
inductive Pc where
  | getRefund (refund : Row) (providerRefundReference : Nat)
  | findRefund (refund : Row)
  /-- `result` is null, and `findRefund` said so at the time `asked`. -/
  | noResult (refund : Row) (asked : Option Nat)
  /-- The submission is claimed. -/
  | refundPayment (refund : Row) (asked : Option Nat)
  | awaiting (refund : Row)
  /-- The provider has rejected the request. -/
  | fail
  | answered (refund : Row) (providerRefundReference : Nat) (status : RefundStatus)
  | settle (status : RefundStatus)
  | done
deriving DecidableEq, Repr

/-- A request that was sent to the provider. -/
structure Send where
  /-- When its call began. -/
  start : Nat
  /-- When `findRefund` told the call that there is no refund. -/
  asked : Option Nat
  /-- The status of the refund when it was sent. -/
  status : TransactionStatus
deriving DecidableEq, Repr

/-! ## The code of `submit` -/

/-- The first thing `submit` does depends on the row it was handed. -/
def submit (refund : Row) : Pc :=
  match refund.providerRefundReference with
  | some providerRefundReference => .getRefund refund providerRefundReference
  | none => if refund.submittedAt.isSome then .findRefund refund else .noResult refund none

/-- Marks the refund as sent, unless it was sent within `RESUBMIT_AFTER_MS`. -/
def claimSubmission (now : Nat) (row : Row) : Option Row :=
  match row.submittedAt with
  | none => some { row with submittedAt := some now }
  | some t => if t + RESUBMIT_AFTER_MS < now then some { row with submittedAt := some now } else none

def complete (row : Row) : Row :=
  if row.status ≠ .processing then row else { row with status := .successful }

def fail (row : Row) : Row :=
  if row.status ≠ .processing then row else { row with status := .failed }

/-- Keeps the provider's number of the refund. -/
def record (refund : Row) (providerRefundReference : Nat) (row : Row) : Row :=
  if some providerRefundReference ≠ refund.providerRefundReference then
    { row with providerRefundReference }
  else
    row

def settle (status : RefundStatus) (row : Row) : Row :=
  match status with
  | .successful => complete row
  | .failed => fail row
  | .pending => row

/-! ## Steps of anybody -/

/-- What a step of one call works on. -/
structure Sight where
  start : Nat
  pc : Pc
  request : Option Request
  row : Row
  /-- How many refunds the provider has made. -/
  refunds : Nat
  /-- Everything that was sent, the latest first. -/
  sends : List Send

/-- One step of a call or of the request it has sent. -/
inductive Act (now : Nat) (s : Sight) : Sight → Prop
  | getRefund {refund : Row} {reference : Nat} (status : RefundStatus)
      (here : s.pc = .getRefund refund reference) :
      Act now s { s with pc := .answered refund reference status }
  /-- The provider truthfully knows of no refund. -/
  | findNothing {refund : Row} (here : s.pc = .findRefund refund) (nothing : s.refunds = 0) :
      Act now s { s with pc := .noResult refund (some now) }
  | findOurs {refund : Row} {reference : Nat} (status : RefundStatus)
      (here : s.pc = .findRefund refund) (known : reference < s.refunds) :
      Act now s { s with pc := .answered refund reference status }
  | claim {refund row : Row} {asked : Option Nat} (here : s.pc = .noResult refund asked)
      (granted : claimSubmission now s.row = some row) :
      Act now s { s with pc := .refundPayment refund asked, row }
  | claimFails {refund : Row} {asked : Option Nat} (here : s.pc = .noResult refund asked)
      (refused : claimSubmission now s.row = none) : Act now s { s with pc := .done }
  | refundPayment {refund : Row} {asked : Option Nat} (here : s.pc = .refundPayment refund asked) :
      Act now s { s with
        pc := .awaiting refund
        request := some .inFlight
        sends := ⟨s.start, asked, s.row.status⟩ :: s.sends }
  /-- Each accepted request makes a refund of its own: the provider is not idempotent. -/
  | accept (sent : s.request = some .inFlight) :
      Act now s { s with request := some .accepted, refunds := s.refunds + 1 }
  | refuse (sent : s.request = some .inFlight) : Act now s { s with request := some .refused }
  | respond {refund : Row} {reference : Nat} (status : RefundStatus) (here : s.pc = .awaiting refund)
      (accepted : s.request = some .accepted) (known : reference < s.refunds) :
      Act now s { s with pc := .answered refund reference status }
  | reject {refund : Row} (here : s.pc = .awaiting refund) (refused : s.request = some .refused) :
      Act now s { s with pc := .fail }
  | failRejected (here : s.pc = .fail) : Act now s { s with pc := .done, row := fail s.row }
  | record {refund : Row} {reference : Nat} {status : RefundStatus}
      (here : s.pc = .answered refund reference status) :
      Act now s { s with pc := .settle status, row := record refund reference s.row }
  | settle {status : RefundStatus} (here : s.pc = .settle status) :
      Act now s { s with pc := .done, row := settle status s.row }
  /-- A lookup or a request that fails without telling anything, or the end of the process. -/
  | stop : Act now s { s with pc := .done }

structure Call where
  start : Nat
  pc : Pc
  request : Option Request
deriving DecidableEq, Repr

/-- A refund from its creation on, with every call that submits it. -/
structure Refund (ι : Type) where
  row : Row
  /-- Every version of the row there ever was. -/
  versions : List Row
  refunds : Nat
  sends : List Send
  calls : ι → Option Call

variable {ι : Type} [DecidableEq ι]

namespace Refund

/-- The part of a refund that a step of this call works on. -/
def sight (r : Refund ι) (call : Call) : Sight :=
  ⟨call.start, call.pc, call.request, r.row, r.refunds, r.sends⟩

/-- The refund after a step of the call `i`. -/
def put (r : Refund ι) (i : ι) (s : Sight) : Refund ι where
  row := s.row
  versions := s.row :: r.versions
  refunds := s.refunds
  sends := s.sends
  calls := Function.update r.calls i (some ⟨s.start, s.pc, s.request⟩)

/-- A call and its request only act within `span` of the call's start, and when `Admits` lets it. -/
inductive Move (Admits : Nat → Sight → Prop) (span now : Nat) (r : Refund ι) : Refund ι → Prop
  | begin {i : ι} {refund : Row} (new : r.calls i = none) (read : refund ∈ r.versions) :
      Move Admits span now r (r.put i ⟨now, submit refund, none, r.row, r.refunds, r.sends⟩)
  | act {i : ι} {call : Call} {s : Sight} (running : r.calls i = some call)
      (lasts : now < call.start + span) (admits : Admits now (r.sight call))
      (acts : Act now (r.sight call) s) : Move Admits span now r (r.put i s)

def created : Refund ι :=
  ⟨⟨.processing, none, none⟩, [⟨.processing, none, none⟩], 0, [], fun _ => none⟩

end Refund

/-- Every refund as it was created, and no call yet. -/
def start (now : Nat) : Clocked Uuid (Refund ι) := ⟨now, fun _ => .created⟩

/-- Everything that can happen in steps that `Admits` lets happen. -/
def Reaches (Admits : Nat → Sight → Prop) (span : Nat) :
    Clocked Uuid (Refund ι) → Clocked Uuid (Refund ι) → Prop :=
  Clocked.Reaches (Refund.Move Admits span)

end Finstack.RefundSubmission
