import Finstack.Model.Errors
import Mathlib.Algebra.Order.Ring.Int

/-! # Reversing a conversion

A refund of a converted payment takes its share of the original credit and of the FX revenue. The
shares are differences of cumulative figures: the wallet debit rounds up, the revenue reversal
rounds down.
-/

namespace Finstack

/-- The customer paid `charged`; the wallet received `credited` out of `gross` at the mid rate. -/
structure OriginalConversion where
  charged : Int
  credited : Int
  gross : Int
deriving DecidableEq, Repr

structure ConversionReversal where
  /-- Taken from the wallet, in the wallet currency. -/
  walletDebit : Int
  /-- FX revenue given back, in the wallet currency. -/
  revenueReversal : Int
  /-- The FX position unwound. -/
  grossReversal : Int
deriving DecidableEq, Repr

/-- Division of `bigint`s truncates. -/
def ceilDiv (a b : Int) : Int := (a + b - 1).tdiv b

def rangeError : Err := .internal "RangeError" "Refund exceeds the refundable amount"

def reverseConversion (original : OriginalConversion) (refundedBefore amount : Int) :
    Except Err ConversionReversal :=
  if amount ≤ 0 ∨ refundedBefore < 0 ∨ refundedBefore + amount > original.charged then
    .error rangeError
  else
    let spread := original.gross - original.credited
    let after := refundedBefore + amount
    let walletDebit := ceilDiv (original.credited * after) original.charged -
      ceilDiv (original.credited * refundedBefore) original.charged
    let revenueReversal := (spread * after).tdiv original.charged -
      (spread * refundedBefore).tdiv original.charged
    .ok ⟨walletDebit, revenueReversal, walletDebit + revenueReversal⟩

end Finstack
