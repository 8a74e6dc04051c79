import Finstack.Soundness.Books.Methods

/-! # Conversions that keep the books

What `FxService` does in a transaction that credits a payment: a quote is looked up, replaced or
executed.
-/

namespace Finstack

open Foundation Discipline LedgerService

/-- A quote is executed between these accounts: this much is credited. -/
inductive Converted (c : Db) (target : Uuid) (amount : Int) (reference : String) : Db → Db → Prop
  | intro {source targetLeg : PostingInput} {position id id' quoteId : Uuid} {gross total total' : Int}
      {rest : List PostingEntry} {change : FxQuote → FxQuote} {m m₁ m₂ : Db}
      (sourceReference : source.reference = s!"{reference}:fx-source")
      (sourceEntries : ∀ entry ∈ source.entries, c.Coded entry.accountId)
      (posts : Posts id source total m m₁)
      (targetReference : targetLeg.reference = s!"{reference}:fx-target")
      (targetEntries : targetLeg.entries = ⟨position, .debit, gross⟩ :: ⟨target, .credit, amount⟩ :: rest)
      (coded : c.Coded position) (others : ∀ entry ∈ rest, c.Coded entry.accountId)
      (posts' : Posts id' targetLeg total' m₁ m₂)
      (keeps : ∀ quote, key (change quote) = key quote)
      (consumes : ∀ quote, (change quote).conversionReference = some reference) :
      Converted c target amount reference m (m₂.onFxQuotes (·.modify quoteId change))

theorem Db.checkNewQuote_ok {row : FxQuote} {m : Db} (passed : m.checkNewQuote row = .ok ()) :
    m.fxQuotes.find? row.id = none := by
  unfold checkNewQuote at passed
  cases checked : checkQuote row with
  | error e => simp [checked] at passed; cases passed
  | ok u =>
    cases found : m.fxQuotes.find? row.id with
    | none => rfl
    | some taken => simp [checked, found] at passed; cases passed

namespace Services

variable {mode : Mode} {T : Db → Db → Prop} {F : Knowing} {held : List RowLock} {c : Db}

/-- A quote that is locked. -/
def lockedQuote (row : FxQuote) : Knowing where
  holds held c := RowLock.fxQuote row.id ∈ held ∧ c.fxQuotes.find? row.id = some row
  keeps := by
    rintro held c c' ⟨-, -, same⟩ ⟨mine, found⟩
    have guarded := same _ mine
    simp only [Db.same_observed, Db.observe, Db.Observed.fxQuote.injEq] at guarded
    exact ⟨mine, guarded ▸ found⟩
  more subset known := ⟨subset _ known.1, known.2⟩

namespace FxService

theorem keeping_getQuoteWithin (quoteId : Uuid) :
    Keeping .inside T F (getQuoteWithin quoteId) (fun _ => T) fun _ => F :=
  keeping_query.bind fun _ => keeping_orThrow

theorem keeping_getQuote (quoteId : Uuid) (userId : Option (Option Uuid)) :
    Keeping mode T F (getQuote quoteId userId) (fun _ => T) fun _ => F := by
  refine (keeping_queryCommitted.bind fun _ => keeping_orThrow).bind fun quote => ?_
  split_ifs
  · exact keeping_throw
  · exact keeping_stay

/-- A quote is stored on a connection of its own. -/
theorem keeping_createQuote (id : Uuid) (userId : Option Uuid) (source target : String) (amount : Int)
    (offer : Except Err Offer) :
    Keeping mode T F (createQuote id userId source target amount offer) (fun _ => T) fun _ => F := by
  refine keeping_ret.bind fun offer' => (leads_separately (R := fun _ => F) (fun c _ write inv done => ?_)
    fun _ _ _ _ _ _ known => known).bind fun _ => keeping_stay
  rw [same_of_databaseCheck done]
  cases checked : c.checkNewQuote (newQuote id userId source target amount offer') with
  | error e => simp [databaseCheck, checked] at done
  | ok u =>
    obtain ⟨continues, books⟩ := inv.quoteStored (Db.checkNewQuote_ok checked) rfl
    exact ⟨.inr ⟨books, continues, (writes_insertQuote (newQuote id userId source target amount offer')).frame c⟩, .inr ⟨continues, books⟩⟩

/-- What the accounts of a conversion are. -/
def theAccounts (accounts : Finstack.FxService.ConversionAccounts) : Knowing :=
  ((platform accounts.sourcePosition).and (platform accounts.targetPosition)).and
    (platform accounts.targetRevenue)

theorem keeping_systemAccounts (fresh : Fresh) (source target : String) :
    Keeping mode T F (systemAccounts fresh source target) (fun _ => T) fun accounts =>
      F.and (theAccounts accounts) :=
  (keeping_ensureSystemAccount _ _).bind fun _ => (keeping_ensureSystemAccount _ _).bind fun _ =>
    (keeping_ensureSystemAccount _ _).bind fun _ => keeping_pure fun _ _ _ known =>
      ⟨known.1.1.1, ⟨known.1.1.2, known.1.2⟩, known.2⟩

/-- Both legs, and the quote. -/
theorem keeping_execute (fresh : Fresh) (input : ConvertInput)
    (accounts : Finstack.FxService.ConversionAccounts) (quote : FxQuote)
    (quotes : ∀ held c m, c.Books → F.holds held c → T c m → m.fxQuotes = c.fxQuotes)
    (locks : ∀ held c, c.Books → F.holds held c → (lockedQuote quote).holds held c)
    (platforms : ∀ held c, c.Books → F.holds held c →
      (theAccounts accounts).holds held c ∧ (platform input.sourceDebitAccountId).holds held c)
    (unused : ∀ held c m, c.Books → F.holds held c → T c m →
      ¬ m.Uses s!"{input.reference}:fx-source" ∧ ¬ m.Uses s!"{input.reference}:fx-target" ∧
        s!"{input.reference}:fx-source" ≠ s!"{input.reference}:fx-target") :
    Keeping .inside T F (execute fresh input accounts quote)
      (fun result c b => ∃ m, T c m ∧ Converted c input.targetCreditAccountId result.quote.targetAmount
        input.reference m b) fun _ => F := by
  refine (keeping_postWithin _ fun held c m books known before => (unused held c m books known before).1).bind
    fun sourceLeg => (keeping_postWithin _ ?_).bind fun targetLeg => keeping_query.bind fun now => ?_
  · rintro held c m books ⟨known, -⟩ ⟨m', total, before, posts⟩ uses
    obtain ⟨-, target, apart⟩ := unused held c m' books known before
    rcases (Db.uses_posted posts).mp uses with already | same
    · exact target already
    · exact apart same
  have byId : ∀ row, (consume input.reference now sourceLeg.transaction.id targetLeg.transaction.id row).id =
      row.id := fun _ => rfl
  refine (keeping_saveAny (writes_modifyQuote List.mem_cons_self byId)).bind fun _ => ?_
  refine (leads_query (R := fun found => F.and (Fact.given (∀ row, found = some row →
    row.targetAmount = quote.targetAmount))) ?_).bind fun found => ?_
  · rintro held c b books ⟨m₂, ⟨m₁, total', ⟨m, total, before, posts⟩, posts'⟩, rfl⟩ ⟨⟨known, -⟩, -⟩
    refine ⟨known, fun row found => ?_⟩
    have same : m₂.fxQuotes = c.fxQuotes := by
      rw [posts'.result, posts.result]
      exact quotes held c m books known before
    have keeps : ∀ row : FxQuote, key (consume input.reference now sourceLeg.transaction.id
        targetLeg.transaction.id row) = key row := fun _ => rfl
    have modified := Table.find?_modify_self keeps (t := m₂.fxQuotes) (k := quote.id)
    rw [same, (locks held c books known).2] at modified
    rw [Db.onFxQuotes, same] at found
    obtain rfl := Option.some.inj (found.symm.trans modified)
    rfl
  cases found with
  | none => exact keeping_throw
  | some row =>
    refine keeping_less (keeping_give ?_) fun _ _ _ known => known.1
    rintro held c b books ⟨m₂, ⟨m₁, total', ⟨m, total, before, posts⟩, posts'⟩, rfl⟩ ⟨known, same⟩
    obtain ⟨⟨⟨position, target⟩, revenue⟩, source⟩ := platforms held c books known
    refine ⟨m, before, ?_⟩
    have amount : row.targetAmount = quote.targetAmount := same row rfl
    refine .intro rfl ?_ posts rfl (by rw [amount]; rfl) target ?_ posts' (fun _ => rfl) fun _ => rfl
    · intro entry member
      rcases List.mem_pair.mp member with rfl | rfl
      · exact source
      · exact position
    · intro entry member
      split_ifs at member
      · obtain rfl := List.mem_singleton.mp member
        exact revenue
      · cases member

/-- A quote is executed once: an answer from before is not one of the books'. -/
theorem keeping_convertWithin (fresh : Fresh) (input : ConvertInput) (beforeConvert : DbTxn Unit)
    (before : ∀ {F : Knowing}, Keeping .inside T F beforeConvert (fun _ => T) fun _ => F)
    (quotes : ∀ held c m, c.Books → F.holds held c → T c m → m.fxQuotes = c.fxQuotes)
    (unconverted : ∀ held c, c.Books → F.holds held c →
      ∀ quote ∈ c.fxQuotes, quote.conversionReference ≠ some input.reference)
    (platforms : ∀ held c, c.Books → F.holds held c → (platform input.sourceDebitAccountId).holds held c)
    (unused : ∀ held c m, c.Books → F.holds held c → T c m →
      ¬ m.Uses s!"{input.reference}:fx-source" ∧ ¬ m.Uses s!"{input.reference}:fx-target" ∧
        s!"{input.reference}:fx-source" ≠ s!"{input.reference}:fx-target") :
    Keeping .inside T F (convertWithin fresh input beforeConvert)
      (fun result c b => ∃ m, T c m ∧ Converted c input.targetCreditAccountId result.quote.targetAmount
        input.reference m b) fun _ => F := by
  refine (keeping_getQuote _ _).bind fun preview => (keeping_systemAccounts _ _ _).bind fun accounts =>
    before.bind fun _ => (leads_select (R := fun found => (F.and (theAccounts accounts)).and
      (Fact.each found fun quote => (lockedQuote quote).and
        (Fact.given (quote.conversionReference ≠ some input.reference)))) ?_).bind fun found =>
          keeping_orFail_each.bind fun quote => ?_
  · intro held c m books done known mine
    refine ⟨known, ?_⟩
    rw [quotes held c m books known.1 done]
    cases found : c.fxQuotes.find? input.quoteId with
    | none => trivial
    | some quote =>
      obtain ⟨member, own⟩ := Table.find?_some found
      have lock : RowLock.fxQuote input.quoteId ∈ held := mine _ List.mem_cons_self
      rw [← own] at lock
      exact ⟨⟨lock, Table.find?_of_mem member⟩, unconverted held c books known.1 quote member⟩
  split_ifs with consumed converted
  · intro held pend c _ _ known
    exact (known.2.2 converted).elim
  · exact keeping_throw
  refine keeping_query.bind fun now => ?_
  split_ifs
  · exact keeping_throw
  refine keeping_less (keeping_execute fresh input accounts quote
    (fun held c m books known => quotes held c m books known.1.1) (fun _ _ _ known => known.2.1)
    (fun held c books known => ⟨known.1.2, platforms held c books known.1.1⟩)
    fun held c m books known => unused held c m books known.1.1) fun _ _ _ known => known.1.1

end FxService

end Services

end Finstack
