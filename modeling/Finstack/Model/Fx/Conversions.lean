import Finstack.Foundation.Schedule
import Finstack.Foundation.UniqueIndex
import Finstack.Model.Fx.Legs
import Finstack.Model.Ledger.Sequences

/-! # Converting at a quote

`FxService.convertWithin`, statement by statement, for any number of calls, quotes and references.
The caller's transaction may post more before it commits, and others post and quote meanwhile. Which
check of an account or a wallet refuses a call is up to the environment.
-/

namespace Finstack.Fx

open Foundation

/-! ## Rows -/

/-- A ledger transaction and its entries. -/
structure Posting where
  transaction : LedgerTransaction
  entries : List LedgerEntry
deriving DecidableEq, Repr

def newPosting (id : Uuid) (input : PostingInput) (amount : Int) : Posting :=
  let transaction := LedgerService.newTransaction id input amount
  ⟨transaction, LedgerService.newEntries transaction input.entries⟩

/-- The row of `uq_ledger_transactions_reference` under this reference. -/
def hasReference (reference : String) (posting : Posting) : Bool :=
  posting.transaction.reference = reference

/-- The row of `uq_fx_quotes_conversion_reference` under this reference. -/
def isConversion (reference : String) (quote : FxQuote) : Bool :=
  quote.conversionReference = some reference

/-- The CHECKs of `fx_quotes` on a quote that nobody has used. -/
def isNewQuote (quote : FxQuote) : Bool :=
  quote.sourceCurrency ≠ quote.targetCurrency && quote.sourceAmount > 0 && quote.targetAmount > 0 &&
    quote.targetAmount ≤ quote.grossTargetAmount && quote.consumedAt.isNone &&
    quote.conversionReference.isNone && quote.sourceTransactionId.isNone &&
    quote.targetTransactionId.isNone

/-- The UPDATE that consumes a quote. -/
def consume (quote : FxQuote) (clock : Nat) (reference : String) (source target : Uuid) : FxQuote :=
  { quote with
    consumedAt := some clock
    conversionReference := some reference
    sourceTransactionId := some source
    targetTransactionId := some target }

/-! ## Errors -/

def fxQuoteNotFoundException : AppException :=
  ⟨"FX_QUOTE_NOT_FOUND", "Quote not found", HttpStatus.notFound⟩

def fxQuoteExpiredException : AppException :=
  ⟨"FX_QUOTE_EXPIRED", "The quote has expired", HttpStatus.unprocessableEntity⟩

def fxQuoteAlreadyUsedException : AppException :=
  ⟨"FX_QUOTE_ALREADY_USED", "The quote has already been used for another conversion",
    HttpStatus.conflict⟩

/-! ## Calls -/

structure ConversionResult where
  quote : FxQuote
  sourceLeg : LedgerTransaction
  targetLeg : LedgerTransaction
  replayed : Bool
deriving DecidableEq, Repr

/-- What a posting is followed by. -/
inductive Next where
  | target (ids : FxService.ConversionAccounts) (quote : FxQuote)
  | update (quote : FxQuote) (sourceLeg : LedgerTransaction)
  /-- It was the caller's own. -/
  | commit (result : ConversionResult)
deriving DecidableEq, Repr

/-- The statement a call is at, with what it has read. -/
inductive Pc where
  | getQuote
  | lockQuote (ids : FxService.ConversionAccounts)
  | replay (quote : FxQuote)
  | find (posting : PostingInput) (next : Next)
  | insert (posting : PostingInput) (amount : Int) (next : Next)
  | update (quote : FxQuote) (sourceLeg targetLeg : LedgerTransaction)
  | commit (result : ConversionResult)
  | returned (result : ConversionResult)
  | threw (error : Err)
  | crashed
deriving DecidableEq, Repr

/-- The call has ended. -/
def Pc.isOver : Pc → Bool
  | .returned _ | .threw _ | .crashed => true
  | _ => false

structure Call where
  input : ConvertInput
  pc : Pc
deriving DecidableEq, Repr

/-- The clock, the quotes and the postings with the ids they ever had, when each call has found its
quote unused and valid, and every call. -/
structure Desk (ι : Type) where
  now : Nat
  quoteIds : List Uuid
  quotes : RowStore Uuid FxQuote ι
  postingIds : List Uuid
  postings : RowStore Uuid Posting ι
  checkedAt : ι → Option Nat
  calls : ι → Option Call

variable {ι : Type} [DecidableEq ι]

namespace Desk

def start (now : Nat) : Desk ι :=
  ⟨now, [], .start fun _ => none, [], .start fun _ => none, fun _ => none, fun _ => none⟩

def goto (d : Desk ι) (i : ι) (call : Call) (pc : Pc) : Desk ι :=
  { d with calls := Function.update d.calls i (some { call with pc }) }

def commit (d : Desk ι) (i : ι) : Desk ι :=
  { d with quotes := d.quotes.commit i, postings := d.postings.commit i }

def rollback (d : Desk ι) (i : ι) : Desk ι :=
  { d with quotes := d.quotes.rollback i, postings := d.postings.rollback i }

/-- The transaction is rolled back with an error. -/
def throw (d : Desk ι) (i : ι) (call : Call) (error : Err) : Desk ι :=
  (d.rollback i).goto i call (.threw error)

/-- `findOneBy` the reference, on the call's own connection. -/
def findPosting (d : Desk ι) (i : ι) (reference : String) : Option Posting :=
  d.postingIds.findSome? fun id => (d.postings.view i id).filter (hasReference reference)

/-- The posting has its transaction. -/
def posted (input : ConvertInput) (transaction : LedgerTransaction) : Next → Pc
  | .target ids quote => .find (FxService.targetLeg ids quote input) (.update quote transaction)
  | .update quote sourceLeg => .update quote sourceLeg transaction
  | .commit result => .commit result

/-- The quote as the call sees it, now that it has the lock. -/
def checkQuote (d : Desk ι) (i : ι) (call : Call) (ids : FxService.ConversionAccounts)
    (quote : FxQuote) : Desk ι :=
  if quote.consumedAt ≠ none then
    if quote.conversionReference = some call.input.reference then
      { d.goto i call (.replay quote) with quotes := d.quotes.lock i call.input.quoteId }
    else
      d.throw i call (.app fxQuoteAlreadyUsedException)
  else if quote.expiresAt ≤ d.now then
    d.throw i call (.app fxQuoteExpiredException)
  else
    { d.goto i call (.find (FxService.sourceLeg ids quote call.input) (.target ids quote)) with
      quotes := d.quotes.lock i call.input.quoteId
      checkedAt := Function.update d.checkedAt i (some d.now) }

/-- The next statement of the call `i`, unless it waits for a lock. -/
def advance (accounts : PlatformAccounts) (d : Desk ι) (i : ι) (call : Call) : Option (Desk ι) :=
  match call.pc with
  | .getQuote =>
    match d.quotes.rows call.input.quoteId with
    | none => some (d.throw i call (.app fxQuoteNotFoundException))
    | some preview =>
      if call.input.userId.any fun userId => preview.userId ≠ userId then
        some (d.throw i call (.app fxQuoteNotFoundException))
      else
        some (d.goto i call
          (.lockQuote (accounts.conversion preview.sourceCurrency preview.targetCurrency)))
  | .lockQuote ids =>
    if d.quotes.Free i call.input.quoteId then
      match d.quotes.view i call.input.quoteId with
      | none => some (d.throw i call (.entityNotFound "FxQuote"))
      | some quote => some (d.checkQuote i call ids quote)
    else
      none
  | .replay quote =>
    match quote.sourceTransactionId.bind (d.postings.view i),
      quote.targetTransactionId.bind (d.postings.view i) with
    | some source, some target =>
      some (d.goto i call (.commit ⟨quote, source.transaction, target.transaction, true⟩))
    | _, _ => some (d.throw i call (.entityNotFound "LedgerTransaction"))
  | .find posting next =>
    match validatePosting posting with
    | .error error => some (d.throw i call error)
    | .ok amount =>
      match d.findPosting i posting.reference with
      | none => some (d.goto i call (.insert posting amount next))
      | some existing =>
        match LedgerService.replayResult posting existing.transaction existing.entries with
        | .error error => some (d.throw i call error)
        | .ok answer => some (d.goto i call (posted call.input answer.transaction next))
  | .update quote sourceLeg targetLeg =>
    let reference := call.input.reference
    let consumed := consume quote d.now reference sourceLeg.id targetLeg.id
    if d.quotes.Taken (isConversion reference) d.quoteIds i call.input.quoteId then
      some (d.throw i call (.database (.uniqueViolation "uq_fx_quotes_conversion_reference")))
    else if d.quotes.Waits (isConversion reference) d.quoteIds i call.input.quoteId then
      none
    else
      some { d.goto i call (.commit ⟨consumed, sourceLeg, targetLeg, false⟩) with
        quotes := d.quotes.write i call.input.quoteId (some consumed) }
  | .commit result => some ((d.commit i).goto i call (.returned result))
  | .insert _ _ _ | .returned _ | .threw _ | .crashed => none

/-- The INSERT of a transaction and its entries, with the id that the database generates. -/
def insert (d : Desk ι) (i : ι) (id : Uuid) (call : Call) : Option (Desk ι) :=
  match call.pc with
  | .insert posting amount next =>
    if id ∈ d.postingIds then
      none
    else if d.postings.Taken (hasReference posting.reference) d.postingIds i id then
      some (d.throw i call (.database (.uniqueViolation "uq_ledger_transactions_reference")))
    else if d.postings.Waits (hasReference posting.reference) d.postingIds i id then
      none
    else
      some { d.goto i call
          (posted call.input (LedgerService.newTransaction id posting amount) next) with
        postingIds := id :: d.postingIds
        postings := d.postings.write i id (some (newPosting id posting amount)) }
  | _ => none

/-- What the environment decides. -/
inductive Action (ι : Type) where
  | tick (now : Nat)
  /-- Somebody else's quote is saved. -/
  | quote (i : ι) (quote : FxQuote)
  /-- Somebody else's posting is committed. -/
  | post (i : ι) (id : Uuid) (posting : PostingInput)
  | convert (i : ι) (input : ConvertInput)
  | advance (i : ι)
  | insert (i : ι) (id : Uuid)
  /-- The caller's transaction posts something else after the conversion. -/
  | also (i : ι) (posting : PostingInput)
  /-- A wallet is frozen, an account is missing or short of funds, the database is out of reach. -/
  | refuse (i : ι) (error : Err)
  | crash (i : ι)
deriving DecidableEq, Repr

def step (accounts : PlatformAccounts) : Action ι → Desk ι → Option (Desk ι)
  | .tick now, d => if d.now ≤ now then some { d with now } else none
  | .quote i quote, d =>
    if d.calls i = none ∧ quote.id ∉ d.quoteIds ∧ isNewQuote quote then
      some { d with
        quoteIds := quote.id :: d.quoteIds
        quotes := (d.quotes.write i quote.id (some quote)).commit i }
    else
      none
  | .post i id posting, d =>
    match validatePosting posting with
    | .error _ => none
    | .ok amount =>
      if d.calls i = none ∧ id ∉ d.postingIds ∧
          ¬ d.postings.Taken (hasReference posting.reference) d.postingIds i id ∧
          ¬ d.postings.Waits (hasReference posting.reference) d.postingIds i id then
        some { d with
          postingIds := id :: d.postingIds
          postings := (d.postings.write i id (some (newPosting id posting amount))).commit i }
      else
        none
  | .convert i input, d =>
    if d.calls i = none then some (d.goto i ⟨input, .getQuote⟩ .getQuote) else none
  | .advance i, d => (d.calls i).bind (d.advance accounts i)
  | .insert i id, d => (d.calls i).bind (d.insert i id)
  | .also i posting, d => (d.calls i).bind fun call =>
    match call.pc with
    | .commit result => some (d.goto i call (.find posting (.commit result)))
    | _ => none
  | .refuse i error, d => (d.calls i).bind fun call =>
    if call.pc.isOver then none else some (d.throw i call error)
  | .crash i, d => (d.calls i).bind fun call =>
    if call.pc.isOver then none else some ((d.rollback i).goto i call .crashed)

/-- Everything that can happen in steps that `Admits` lets happen. -/
def Reaches (accounts : PlatformAccounts) (Admits : Action ι → Desk ι → Prop) :
    Desk ι → Desk ι → Prop :=
  Schedule.Reaches (step accounts) Admits

end Desk

end Finstack.Fx
