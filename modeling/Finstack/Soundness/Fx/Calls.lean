import Finstack.Model.Fx.Conversions

/-! # What a conversion knows

What each call knows of the quote that it has locked and of the legs that it has posted, what every
statement keeps of the committed rows, and what it leaves to the other calls.
-/

namespace Finstack.Fx

open Foundation

variable {ι : Type} [DecidableEq ι] {accounts : PlatformAccounts} {d d' : Desk ι} {i j : ι}
  {call : Call} {pc : Pc} {quote : FxQuote} {q id : Uuid}

/-! ## Legs -/

/-- The stored posting is the one that the input describes. -/
structure Posting.Answers (posting : Posting) (input : PostingInput) : Prop where
  reference : posting.transaction.reference = input.reference
  currency : posting.transaction.currency = input.currency
  description : posting.transaction.description = input.description
  entries : entriesFingerprint (posting.entries.map LedgerService.postingEntry) =
    entriesFingerprint input.entries

/-- The accounts that a conversion at this quote posts to. -/
def conversionAccounts (accounts : PlatformAccounts) (quote : FxQuote) :
    FxService.ConversionAccounts :=
  accounts.conversion quote.sourceCurrency quote.targetCurrency

/-- The transaction is among these postings, for this input. -/
def Stored (postings : Uuid → Option Posting) (transaction : LedgerTransaction)
    (input : PostingInput) : Prop :=
  ∃ posting, postings transaction.id = some posting ∧ posting.transaction = transaction ∧
    posting.Answers input

/-- A used quote has the legs of a conversion among these postings. -/
structure Paid (accounts : PlatformAccounts) (postings : Uuid → Option Posting) (quote : FxQuote)
    (input : ConvertInput) (sourceLeg targetLeg : LedgerTransaction) : Prop where
  consumedAt : quote.consumedAt.isSome
  reference : quote.conversionReference = some input.reference
  sourceId : quote.sourceTransactionId = some sourceLeg.id
  targetId : quote.targetTransactionId = some targetLeg.id
  source : Stored postings sourceLeg
    (FxService.sourceLeg (conversionAccounts accounts quote) quote input)
  target : Stored postings targetLeg
    (FxService.targetLeg (conversionAccounts accounts quote) quote input)

/-- What a quote offers, used or not. -/
def offer (quote : FxQuote) : FxQuote :=
  { quote with
    consumedAt := none
    conversionReference := none
    sourceTransactionId := none
    targetTransactionId := none }

@[simp] theorem offer_consume (clock : Nat) (reference : String) (source target : Uuid) :
    offer (consume quote clock reference source target) = offer quote := rfl

theorem conversionAccounts_offer : conversionAccounts accounts (offer quote) =
    conversionAccounts accounts quote := rfl

theorem conversionAccounts_eq {quote' : FxQuote} (same : offer quote = offer quote') :
    conversionAccounts accounts quote = conversionAccounts accounts quote' := by
  rw [← conversionAccounts_offer, same, conversionAccounts_offer]

theorem Stored.mono {postings postings' : Uuid → Option Posting} {transaction : LedgerTransaction}
    {input : PostingInput} (more : ∀ id posting, postings id = some posting →
      postings' id = some posting) (stored : Stored postings transaction input) :
    Stored postings' transaction input := by
  obtain ⟨posting, there, same, answers⟩ := stored
  exact ⟨posting, more _ _ there, same, answers⟩

theorem Paid.mono {postings postings' : Uuid → Option Posting} {input : ConvertInput}
    {sourceLeg targetLeg : LedgerTransaction} (more : ∀ id posting, postings id = some posting →
      postings' id = some posting) (paid : Paid accounts postings quote input sourceLeg targetLeg) :
    Paid accounts postings' quote input sourceLeg targetLeg :=
  { paid with source := paid.source.mono more, target := paid.target.mono more }

/-! ## What is stored -/

/-- What the constraints and the code keep of the quotes. -/
structure QuoteRows (quotes : RowStore Uuid FxQuote ι) (ids : List Uuid) : Prop where
  conversions : ∀ reference, quotes.OneOf (isConversion reference)
  within : quotes.Within ids
  offers : ∀ q a b, quotes.Shows q a → quotes.Shows q b → offer a = offer b
  unused : ∀ q quote, quotes.Shows q quote → quote.consumedAt = none → offer quote = quote

/-- What the constraints and the code keep of the postings, which are only added. -/
structure PostingRows (postings : RowStore Uuid Posting ι) (ids : List Uuid) : Prop where
  references : ∀ reference, postings.OneOf (hasReference reference)
  within : postings.Within ids
  added : ∀ i id, postings.holder id = some i → postings.rows id = none
  named : ∀ id posting, postings.Shows id posting → posting.transaction.id = id
  balanced : ∀ id posting, postings.Shows id posting →
    sideTotal .debit (posting.entries.map LedgerService.postingEntry) = posting.transaction.amount

/-! ## What a call knows -/

namespace Desk

/-- The call has locked its quote and holds no other, and has found it unused and valid. -/
structure Unused (d : Desk ι) (i : ι) (q : Uuid) (quote : FxQuote) : Prop where
  holder : d.quotes.holder q = some i
  row : d.quotes.rows q = some quote
  view : d.quotes.view i q = some quote
  unconsumed : quote.consumedAt = none
  valid : ∃ checkedAt, d.checkedAt i = some checkedAt ∧ checkedAt < quote.expiresAt
  only : ∀ l, d.quotes.holder l = some i → l = q

/-- The call has locked its quote, which has been used under its reference, or which it has used. -/
structure Done (accounts : PlatformAccounts) (d : Desk ι) (i : ι) (input : ConvertInput)
    (result : ConversionResult) : Prop where
  holder : d.quotes.holder input.quoteId = some i
  view : d.quotes.view i input.quoteId = some result.quote
  reference : result.quote.conversionReference = some input.reference
  paid : ∃ original, Paid accounts (d.postings.view i) result.quote original result.sourceLeg
    result.targetLeg
  before : d.quotes.rows input.quoteId = some result.quote ∨ ∃ quote,
    d.quotes.rows input.quoteId = some quote ∧ quote.consumedAt = none ∧
    ∃ checkedAt, d.checkedAt i = some checkedAt ∧ checkedAt < quote.expiresAt
  only : ∀ l, d.quotes.holder l = some i → l = input.quoteId

/-- The call holds no lock. -/
structure Idle (d : Desk ι) (i : ι) : Prop where
  quotes : ∀ l, d.quotes.holder l ≠ some i
  postings : ∀ l, d.postings.holder l ≠ some i

/-- The call has returned what is committed. -/
def Returned (accounts : PlatformAccounts) (d : Desk ι) (input : ConvertInput)
    (result : ConversionResult) : Prop :=
  d.quotes.rows input.quoteId = some result.quote ∧
    result.quote.conversionReference = some input.reference ∧
    ∃ original, Paid accounts d.postings.rows result.quote original result.sourceLeg result.targetLeg

/-- What a call knows while it makes this posting. -/
def HoldsNext (accounts : PlatformAccounts) (d : Desk ι) (i : ι) (input : ConvertInput)
    (posting : PostingInput) : Next → Prop
  | .target ids quote => d.Unused i input.quoteId quote ∧ ids = conversionAccounts accounts quote ∧
    posting = FxService.sourceLeg ids quote input
  | .update quote sourceLeg => d.Unused i input.quoteId quote ∧
    posting = FxService.targetLeg (conversionAccounts accounts quote) quote input ∧
    Stored (d.postings.view i) sourceLeg
      (FxService.sourceLeg (conversionAccounts accounts quote) quote input)
  | .commit result => d.Done accounts i input result

def Holds (accounts : PlatformAccounts) (d : Desk ι) (i : ι) (input : ConvertInput) : Pc → Prop
  | .getQuote => d.Idle i
  | .lockQuote ids => d.Idle i ∧
    ∃ quote, d.quotes.rows input.quoteId = some quote ∧ ids = conversionAccounts accounts quote
  | .replay quote => d.quotes.holder input.quoteId = some i ∧
    d.quotes.view i input.quoteId = some quote ∧ d.quotes.rows input.quoteId = some quote ∧
    quote.consumedAt.isSome ∧ quote.conversionReference = some input.reference ∧
    ∀ l, d.quotes.holder l = some i → l = input.quoteId
  | .find posting next => d.HoldsNext accounts i input posting next
  | .insert posting amount next => validatePosting posting = .ok amount ∧
    d.HoldsNext accounts i input posting next
  | .update quote sourceLeg targetLeg => d.Unused i input.quoteId quote ∧
    Stored (d.postings.view i) sourceLeg
      (FxService.sourceLeg (conversionAccounts accounts quote) quote input) ∧
    Stored (d.postings.view i) targetLeg
      (FxService.targetLeg (conversionAccounts accounts quote) quote input)
  | .commit result => d.Done accounts i input result
  | .returned result => d.Idle i ∧ d.Returned accounts input result
  | .threw _ | .crashed => d.Idle i

/-! ## What holds of every desk -/

structure Rows (accounts : PlatformAccounts) (d : Desk ι) : Prop where
  quotes : QuoteRows d.quotes d.quoteIds
  postings : PostingRows d.postings d.postingIds
  paid : ∀ q quote, d.quotes.rows q = some quote → quote.consumedAt.isSome →
    ∃ input sourceLeg targetLeg, Paid accounts d.postings.rows quote input sourceLeg targetLeg

structure Inv (accounts : PlatformAccounts) (d : Desk ι) : Prop where
  rows : d.Rows accounts
  idle : ∀ i, d.calls i = none → d.Idle i
  calls : ∀ i call, d.calls i = some call → d.Holds accounts i call.input call.pc

/-- What a step of somebody else leaves to the call `j`. -/
structure Frame (d d' : Desk ι) (j : ι) : Prop where
  quotes : d.quotes.Keeps d'.quotes j
  postings : d.postings.Keeps d'.postings j
  offered : ∀ q quote, d.quotes.rows q = some quote → ∃ quote', d'.quotes.rows q = some quote' ∧
    offer quote' = offer quote
  used : ∀ q quote, d.quotes.rows q = some quote → quote.consumedAt.isSome →
    d'.quotes.rows q = some quote
  posted : ∀ id posting, d.postings.rows id = some posting → d'.postings.rows id = some posting
  checkedAt : d'.checkedAt j = d.checkedAt j

theorem Frame.idle (frame : d.Frame d' j) (idle : d.Idle j) : d'.Idle j where
  quotes l held := idle.quotes l ((frame.quotes l).1.mp held)
  postings l held := idle.postings l ((frame.postings l).1.mp held)

/-- A call goes on seeing the postings that it has seen. -/
theorem Frame.view (frame : d.Frame d' j) (id : Uuid) (posting : Posting)
    (seen : d.postings.view j id = some posting) : d'.postings.view j id = some posting := by
  by_cases mine : d.postings.holder id = some j
  · rw [((frame.postings id).2 mine).2]
    exact seen
  · rw [RowStore.view_of_not_held mine] at seen
    rw [RowStore.view_of_not_held fun held => mine ((frame.postings id).1.mp held)]
    exact frame.posted id posting seen

theorem Unused.frame (frame : d.Frame d' j) (unused : d.Unused j q quote) :
    d'.Unused j q quote where
  holder := (frame.quotes q).1.mpr unused.holder
  row := ((frame.quotes q).2 unused.holder).1.trans unused.row
  view := ((frame.quotes q).2 unused.holder).2.trans unused.view
  unconsumed := unused.unconsumed
  valid := by
    rw [frame.checkedAt]
    exact unused.valid
  only l held := unused.only l ((frame.quotes l).1.mp held)

theorem Done.frame {input : ConvertInput} {result : ConversionResult} (frame : d.Frame d' j)
    (done : d.Done accounts j input result) : d'.Done accounts j input result where
  holder := (frame.quotes _).1.mpr done.holder
  view := ((frame.quotes _).2 done.holder).2.trans done.view
  reference := done.reference
  paid := by
    obtain ⟨original, paid⟩ := done.paid
    exact ⟨original, paid.mono frame.view⟩
  before := by
    rw [((frame.quotes _).2 done.holder).1, frame.checkedAt]
    exact done.before
  only l held := done.only l ((frame.quotes l).1.mp held)

theorem HoldsNext.frame {input : ConvertInput} {posting : PostingInput} {next : Next}
    (frame : d.Frame d' j) (holds : d.HoldsNext accounts j input posting next) :
    d'.HoldsNext accounts j input posting next := by
  cases next with
  | target ids quote => exact ⟨holds.1.frame frame, holds.2⟩
  | update quote sourceLeg => exact ⟨holds.1.frame frame, holds.2.1, holds.2.2.mono frame.view⟩
  | commit result => exact Done.frame frame holds

theorem Holds.frame {input : ConvertInput} (frame : d.Frame d' j)
    (holds : d.Holds accounts j input pc) : d'.Holds accounts j input pc := by
  cases pc with
  | getQuote | threw | crashed => exact frame.idle holds
  | lockQuote ids =>
    obtain ⟨idle, quote, there, same⟩ := holds
    obtain ⟨quote', there', offered⟩ := frame.offered _ _ there
    exact ⟨frame.idle idle, quote', there', by rw [same, conversionAccounts_eq offered]⟩
  | replay quote =>
    obtain ⟨holder, view, row, consumed, reference, only⟩ := holds
    have kept := (frame.quotes _).2 holder
    exact ⟨(frame.quotes _).1.mpr holder, kept.2.trans view, kept.1.trans row, consumed, reference,
      fun l held => only l ((frame.quotes l).1.mp held)⟩
  | find posting next => exact HoldsNext.frame frame holds
  | insert posting amount next => exact ⟨holds.1, HoldsNext.frame frame holds.2⟩
  | update quote sourceLeg targetLeg =>
    exact ⟨holds.1.frame frame, holds.2.1.mono frame.view, holds.2.2.mono frame.view⟩
  | commit result => exact Done.frame frame holds
  | returned result =>
    obtain ⟨idle, there, reference, original, paid⟩ := holds
    exact ⟨frame.idle idle, frame.used _ _ there paid.consumedAt, reference, original,
      paid.mono frame.posted⟩

/-- Where the calls are says nothing of the rows. -/
theorem Frame.goto (d : Desk ι) (call : Call) (pc : Pc) : d.Frame (d.goto i call pc) j :=
  ⟨.refl _ j, .refl _ j, fun _ quote there => ⟨quote, there, rfl⟩, fun _ _ there _ => there,
    fun _ _ there => there, rfl⟩

end Desk

end Finstack.Fx
