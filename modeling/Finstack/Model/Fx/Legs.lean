import Finstack.Model.Ledger.Posting
import Finstack.Model.Tables

/-! # The legs of a conversion -/

namespace Finstack

structure ConvertInput where
  quoteId : Uuid
  /-- Idempotency reference of the conversion. -/
  reference : String
  description : String
  /-- Account the source currency comes from. -/
  sourceDebitAccountId : Uuid
  /-- Account credited in the target currency. -/
  targetCreditAccountId : Uuid
  /-- When set, the quote must belong to this user. -/
  userId : Option (Option Uuid) := none
deriving DecidableEq, Repr

namespace FxService

/-- The platform's accounts that a conversion posts to. -/
structure ConversionAccounts where
  sourcePosition : Uuid
  targetPosition : Uuid
  targetRevenue : Uuid
deriving DecidableEq, Repr

def sourceLeg (accounts : ConversionAccounts) (quote : FxQuote) (input : ConvertInput) :
    PostingInput where
  reference := s!"{input.reference}:fx-source"
  description := s!"{input.description} ({quote.sourceCurrency} leg)"
  currency := quote.sourceCurrency
  entries := [⟨input.sourceDebitAccountId, .debit, quote.sourceAmount⟩,
    ⟨accounts.sourcePosition, .credit, quote.sourceAmount⟩]

def targetLeg (accounts : ConversionAccounts) (quote : FxQuote) (input : ConvertInput) :
    PostingInput :=
  let spread := quote.grossTargetAmount - quote.targetAmount
  { reference := s!"{input.reference}:fx-target"
    description := s!"{input.description} ({quote.targetCurrency} leg)"
    currency := quote.targetCurrency
    entries := [⟨accounts.targetPosition, .debit, quote.grossTargetAmount⟩,
        ⟨input.targetCreditAccountId, .credit, quote.targetAmount⟩] ++
      if spread > 0 then [⟨accounts.targetRevenue, .credit, spread⟩] else [] }

end FxService

end Finstack
