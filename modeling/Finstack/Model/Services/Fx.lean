import Finstack.Model.Fx.Conversions
import Finstack.Model.Services.Rows

/-! # Conversions

`FxService` on the database. What the rate of the moment makes of an amount is given to
`createQuote`.
-/

namespace Finstack.Services

open Foundation

/-- The ids of the rows a call inserts, in the order of its text. -/
abbrev Fresh := Nat → Uuid

namespace FxService

open Fx (ConversionResult)

/-- What a quote offers at the rate of the moment. -/
structure Offer where
  targetAmount : Int
  /-- Source amount valued at the mid rate. -/
  grossTargetAmount : Int
  expiresAt : Nat

def newQuote (id : Uuid) (userId : Option Uuid) (source target : String) (sourceAmount : Int)
    (offer : Offer) : FxQuote where
  id := id
  userId := userId
  sourceCurrency := source
  targetCurrency := target
  sourceAmount := sourceAmount
  targetAmount := offer.targetAmount
  grossTargetAmount := offer.grossTargetAmount
  expiresAt := offer.expiresAt

def createQuote (id : Uuid) (userId : Option Uuid) (source target : String) (sourceAmount : Int)
    (offer : Except Err Offer) : DbTxn FxQuote := do
  let offer ← Prog.ret offer
  let row := newQuote id userId source target sourceAmount offer
  Txn.separately [.fxQuote id] fun db =>
    databaseCheck (db.checkNewQuote row) (Db.onFxQuotes (·.insert row))
  pure row

/-- On the caller's database transaction, without an owner check. -/
def getQuoteWithin (quoteId : Uuid) : DbTxn FxQuote := do
  let found ← Txn.query fun db => db.fxQuotes.find? quoteId
  orThrow (.app Fx.fxQuoteNotFoundException) found

/-- Other users' quotes read as not found. -/
def getQuote (quoteId : Uuid) (userId : Option (Option Uuid) := none) : DbTxn FxQuote := do
  let found ← Txn.queryCommitted fun db => db.fxQuotes.find? quoteId
  let quote ← orThrow (.app Fx.fxQuoteNotFoundException) found
  if userId.any (· ≠ quote.userId) then Txn.throw (.app Fx.fxQuoteNotFoundException)
  else pure quote

def systemAccounts (fresh : Fresh) (source target : String) :
    DbTxn Finstack.FxService.ConversionAccounts := do
  let sourcePosition ← LedgerService.ensureSystemAccount (fresh 0) (SystemAccounts.fxPosition source)
  let targetPosition ← LedgerService.ensureSystemAccount (fresh 1) (SystemAccounts.fxPosition target)
  let targetRevenue ← LedgerService.ensureSystemAccount (fresh 2) (SystemAccounts.fxRevenue target)
  pure ⟨sourcePosition.id, targetPosition.id, targetRevenue.id⟩

/-- The leg a consumed quote points to. -/
def getTransactionWithin (id : Option Uuid) : DbTxn LedgerTransaction := do
  let found ← Txn.query fun db => id.bind db.ledger.transactions.find?
  orFail "LedgerTransaction" found

def replay (quote : FxQuote) : DbTxn ConversionResult := do
  let sourceLeg ← getTransactionWithin quote.sourceTransactionId
  let targetLeg ← getTransactionWithin quote.targetTransactionId
  pure ⟨quote, sourceLeg, targetLeg, true⟩

def consume (reference : String) (now : Nat) (source target : Uuid) (quote : FxQuote) : FxQuote :=
  { quote with
    consumedAt := some now
    conversionReference := some reference
    sourceTransactionId := some source
    targetTransactionId := some target }

/-- Both legs, and the quote marked as used. -/
def execute (fresh : Fresh) (input : ConvertInput)
    (accounts : Finstack.FxService.ConversionAccounts) (quote : FxQuote) :
    DbTxn ConversionResult := do
  let sourceLeg ← LedgerService.postWithin (fresh 3) (Finstack.FxService.sourceLeg accounts quote input)
  let targetLeg ← LedgerService.postWithin (fresh 4) (Finstack.FxService.targetLeg accounts quote input)
  let now ← Txn.query (·.clock)
  let change := consume input.reference now sourceLeg.transaction.id targetLeg.transaction.id
  save [.fxQuote quote.id, .conversionReference input.reference]
    (Db.checkConversion quote.id input.reference change) (Db.onFxQuotes (·.modify quote.id change))
  let found ← Txn.query fun db => db.fxQuotes.find? quote.id
  let consumed ← orFail "FxQuote" found
  pure ⟨consumed, sourceLeg.transaction, targetLeg.transaction, false⟩

/-- Executes a quote as two single-currency postings. Retrying with the same reference returns the
original result. -/
def convertWithin (fresh : Fresh) (input : ConvertInput) (beforeConvert : DbTxn Unit := pure ()) :
    DbTxn ConversionResult := do
  let preview ← getQuote input.quoteId input.userId
  let accounts ← systemAccounts fresh preview.sourceCurrency preview.targetCurrency
  beforeConvert
  let locked ← Txn.select [.fxQuote input.quoteId] fun db => db.fxQuotes.find? input.quoteId
  let quote ← orFail "FxQuote" locked
  if quote.consumedAt.isSome then
    if quote.conversionReference = some input.reference then replay quote
    else Txn.throw (.app Fx.fxQuoteAlreadyUsedException)
  else
    let now ← Txn.query (·.clock)
    if quote.expiresAt ≤ now then Txn.throw (.app Fx.fxQuoteExpiredException)
    else execute fresh input accounts quote

def convert (fresh : Fresh) (input : ConvertInput) (beforeConvert : DbTxn Unit := pure ()) :
    DbTxn ConversionResult :=
  inTransaction (convertWithin fresh input beforeConvert)

end FxService

end Finstack.Services
