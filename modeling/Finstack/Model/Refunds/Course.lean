import Finstack.Model.Refunds.RefundMath
import Finstack.Model.Tables

/-! # The refunds of one converted payment

What `RefundsService` does to the refunds of a payment, one committed transaction after another:
requests take their share of the conversion at that moment, and each refund later fails or
completes. Whether the wallet covers a request depends on the rest of the wallet, so a request that
passes the checks below may still be refused.
-/

namespace Finstack.RefundCourse

/-- A refund with its share of the conversion. -/
structure Share where
  amount : Int
  walletDebitAmount : Int
  revenueReversal : Int
  grossReversal : Int
  status : TransactionStatus
deriving DecidableEq, Repr

/-- A payment's status and its refunds, in the order of their requests. -/
structure Course where
  status : TransactionStatus
  refunds : List Share
deriving DecidableEq, Repr

/-- A credited payment nothing was refunded of. -/
def Course.start : Course := ⟨.successful, []⟩

/-- A refund that counts against the payment. -/
def Share.counts (share : Share) : Bool := share.status = .processing ∨ share.status = .successful

def Share.completed (share : Share) : Bool := share.status = .successful

/-- The sum of a figure over some of the refunds. -/
def total (which : Share → Bool) (figure : Share → Int) (refunds : List Share) : Int :=
  ((refunds.filter which).map figure).sum

/-- Refunds that are processing or successful count against the payment. -/
def committedAmount (refunds : List Share) : Int := total Share.counts Share.amount refunds

def paymentAlreadyRefundedException : Err :=
  .app ⟨"PAYMENT_ALREADY_REFUNDED", "This payment has already been refunded in full",
    HttpStatus.unprocessableEntity⟩

def paymentNotRefundableException (status : String) : Err :=
  .app ⟨"PAYMENT_NOT_REFUNDABLE",
    s!"Only successful payments can be refunded (this one is {status})",
    HttpStatus.unprocessableEntity⟩

def refundExceedsRemainingException (remaining : Int) (currency : String) : Err :=
  .app ⟨"REFUND_EXCEEDS_REMAINING",
    s!"At most {remaining} {currency} (minor units) can still be refunded",
    HttpStatus.unprocessableEntity⟩

/-- Creates a refund of `amount`, or of all that remains. -/
def createWithHold (original : OriginalConversion) (currency : String) (amount : Option Int)
    (course : Course) : Except Err Course := do
  if course.status = .reversed then throw paymentAlreadyRefundedException
  if course.status ≠ .successful then throw (paymentNotRefundableException course.status.text)
  let refundedBefore := committedAmount course.refunds
  let remaining := original.charged - refundedBefore
  let amount := amount.getD remaining
  if amount ≤ 0 ∨ amount > remaining then throw (refundExceedsRemainingException remaining currency)
  let reversal ← reverseConversion original refundedBefore amount
  -- the refund's transaction carries the wallet debit as its amount
  if reversal.walletDebit ≤ 0 then
    throw (.database (.checkViolation "chk_transactions_amount_positive"))
  pure { course with refunds := course.refunds ++
    [⟨amount, reversal.walletDebit, reversal.revenueReversal, reversal.grossReversal, .processing⟩] }

/-- The refund at this position, while it is processing, gets another status. -/
def settle (status : TransactionStatus) (position : Nat) (course : Course) : Course :=
  { course with refunds := course.refunds.modify position fun share =>
      if share.status ≠ .processing then share else { share with status } }

def fail (position : Nat) (course : Course) : Course := settle .failed position course

def markPaymentReversedIfFullyRefunded (original : OriginalConversion) (course : Course) : Course :=
  if total Share.completed Share.amount course.refunds = original.charged then
    { course with status := .reversed }
  else
    course

/-- A refund that was settled concurrently stays as it is. -/
def complete (original : OriginalConversion) (position : Nat) (course : Course) : Course :=
  if course.refunds[position]?.any fun share => share.status = .processing then
    markPaymentReversedIfFullyRefunded original (settle .successful position course)
  else
    course

inductive Operation where
  | request (amount : Option Int)
  | fail (position : Nat)
  | complete (position : Nat)
deriving DecidableEq, Repr

/-- One committed transaction. -/
def run (original : OriginalConversion) (currency : String) (course : Course) :
    Operation → Except Err Course
  | .request amount => createWithHold original currency amount course
  | .fail position => .ok (fail position course)
  | .complete position => .ok (complete original position course)

/-- One operation after another; refused requests change nothing, and with the right wallet none
need be refused for funds. -/
inductive Reaches (original : OriginalConversion) (currency : String)
    (Admits : Course → Operation → Prop) : Course → Prop
  | start : Reaches original currency Admits .start
  | step {course course' : Course} (reached : Reaches original currency Admits course)
      (operation : Operation) (admits : Admits course operation)
      (done : run original currency course operation = .ok course') :
      Reaches original currency Admits course'

end Finstack.RefundCourse
