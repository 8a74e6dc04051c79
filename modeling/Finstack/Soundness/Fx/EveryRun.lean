import Finstack.Soundness.Fx.Conversions

/-! # Quotes are used once

In every run of conversions a used quote has been paid for with two postings of its own, and only a
conversion that has found it unused and valid under its lock uses it.
-/

namespace Finstack.Fx

open Foundation

variable {ι : Type} [DecidableEq ι] {accounts : PlatformAccounts} {d d' : Desk ι} {i j : ι}
  {call : Call} {quote : FxQuote} {q leg : Uuid} {input : ConvertInput}
  {sourceLeg targetLeg transaction : LedgerTransaction} {postings : Uuid → Option Posting}

/-! ## Legs -/

/-- A transaction serves a quote as a leg. -/
def hasLeg (quote : FxQuote) (leg : Uuid) : Prop :=
  quote.sourceTransactionId = some leg ∨ quote.targetTransactionId = some leg

/-- Two references of legs name the same conversion, and the same leg of it. -/
theorem append_inj_of_suffixes {r r' suffix suffix' : String} (same : r ++ suffix = r' ++ suffix')
    (long : suffix.toList.length = suffix'.toList.length) : r = r' ∧ suffix = suffix' := by
  have chars := congrArg String.toList same
  rw [String.toList_append, String.toList_append] at chars
  obtain ⟨left, right⟩ := List.append_inj' chars long
  exact ⟨String.toList_inj.mp left, String.toList_inj.mp right⟩

theorem reference_sourceLeg (ids : FxService.ConversionAccounts) (quote : FxQuote)
    (input : ConvertInput) :
    (FxService.sourceLeg ids quote input).reference = input.reference ++ ":fx-source" := rfl

theorem reference_targetLeg (ids : FxService.ConversionAccounts) (quote : FxQuote)
    (input : ConvertInput) :
    (FxService.targetLeg ids quote input).reference = input.reference ++ ":fx-target" := rfl

theorem debits_sourceLeg (ids : FxService.ConversionAccounts) (quote : FxQuote)
    (input : ConvertInput) :
    sideTotal .debit (FxService.sourceLeg ids quote input).entries = quote.sourceAmount := by
  simp [sideTotal, FxService.sourceLeg]

theorem debits_targetLeg (ids : FxService.ConversionAccounts) (quote : FxQuote)
    (input : ConvertInput) :
    sideTotal .debit (FxService.targetLeg ids quote input).entries = quote.grossTargetAmount := by
  simp only [sideTotal, FxService.targetLeg]
  split_ifs <;> simp

theorem Stored.amount {input : PostingInput} (rows : d.Rows accounts)
    (stored : Stored d.postings.rows transaction input) :
    transaction.amount = sideTotal .debit input.entries := by
  obtain ⟨posting, there, rfl, answers⟩ := stored
  rw [← rows.postings.balanced _ posting (.inl there)]
  exact sideTotal_perm (Quotient.exact answers.entries)

theorem Stored.reference {input : PostingInput} (stored : Stored postings transaction input) :
    transaction.reference = input.reference := by
  obtain ⟨posting, -, rfl, answers⟩ := stored
  exact answers.reference

/-- One posting under two inputs. -/
theorem Stored.eq {transaction' : LedgerTransaction} {input input' : PostingInput}
    (stored : Stored postings transaction input) (stored' : Stored postings transaction' input')
    (same : transaction.id = transaction'.id) : transaction = transaction' := by
  obtain ⟨posting, there, rfl, -⟩ := stored
  obtain ⟨posting', there', rfl, -⟩ := stored'
  rw [same, there'] at there
  rw [Option.some.inj there]

theorem Paid.apart (paid : Paid accounts postings quote input sourceLeg targetLeg) :
    sourceLeg.id ≠ targetLeg.id := by
  intro same
  have reference := congrArg LedgerTransaction.reference (paid.source.eq paid.target same)
  rw [paid.source.reference, paid.target.reference, reference_sourceLeg, reference_targetLeg]
    at reference
  exact absurd (append_inj_of_suffixes reference (by decide)).2 (by decide)

/-- The leg's reference is the conversion's and a suffix. -/
theorem Paid.posting_of_leg (paid : Paid accounts postings quote input sourceLeg targetLeg)
    (legs : hasLeg quote leg) : ∃ posting suffix, postings leg = some posting ∧
      posting.transaction.reference = input.reference ++ suffix ∧ suffix.toList.length = 10 := by
  rcases legs with source | target
  · obtain rfl := Option.some.inj (paid.sourceId.symm.trans source)
    have reference := paid.source.reference
    obtain ⟨posting, there, rfl, -⟩ := paid.source
    exact ⟨posting, ":fx-source", there, reference, by decide⟩
  · obtain rfl := Option.some.inj (paid.targetId.symm.trans target)
    have reference := paid.target.reference
    obtain ⟨posting, there, rfl, -⟩ := paid.target
    exact ⟨posting, ":fx-target", there, reference, by decide⟩

/-- The legs of a quote are what it says. -/
theorem Paid.unique {input' : ConvertInput} {sourceLeg' targetLeg' : LedgerTransaction}
    (paid : Paid accounts postings quote input sourceLeg targetLeg)
    (paid' : Paid accounts postings quote input' sourceLeg' targetLeg') :
    sourceLeg = sourceLeg' ∧ targetLeg = targetLeg' :=
  ⟨paid.source.eq paid'.source (Option.some.inj (paid.sourceId.symm.trans paid'.sourceId)),
    paid.target.eq paid'.target (Option.some.inj (paid.targetId.symm.trans paid'.targetId))⟩

namespace Desk

theorem Rows.own {q' : Uuid} {quote' : FxQuote} (rows : d.Rows accounts)
    (there : d.quotes.rows q = some quote) (there' : d.quotes.rows q' = some quote')
    (legs : hasLeg quote leg) (legs' : hasLeg quote' leg) : q = q' := by
  have used : ∀ q quote, d.quotes.rows q = some quote → hasLeg quote leg →
      quote.consumedAt.isSome := by
    intro q quote there legs
    by_contra unconsumed
    have unused := rows.quotes.unused q quote (.inl there) (by simpa using unconsumed)
    rw [← unused] at legs
    rcases legs with source | target
    · cases source
    · cases target
  obtain ⟨input, sourceLeg, targetLeg, paid⟩ := rows.paid q quote there (used q quote there legs)
  obtain ⟨input', sourceLeg', targetLeg', paid'⟩ :=
    rows.paid q' quote' there' (used q' quote' there' legs')
  obtain ⟨posting, suffix, atLeg, reference, long⟩ := paid.posting_of_leg legs
  obtain ⟨posting', suffix', atLeg', reference', long'⟩ := paid'.posting_of_leg legs'
  obtain rfl := Option.some.inj (atLeg.symm.trans atLeg')
  have same := (append_inj_of_suffixes (reference.symm.trans reference') (by omega)).1
  -- a conversion's reference is one quote's
  apply (rows.quotes.conversions input.reference).rows
  · simp [there, isConversion, paid.reference]
  · simp [there', isConversion, paid'.reference, same]

/-! ## What holds in every state -/

/-- What is committed, and what the calls have returned. -/
structure Converted (accounts : PlatformAccounts) (d : Desk ι) : Prop where
  /-- A used quote has two legs, for what it offers. -/
  legs : ∀ q quote, d.quotes.rows q = some quote → quote.consumedAt.isSome →
    ∃ input sourceLeg targetLeg, Paid accounts d.postings.rows quote input sourceLeg targetLeg ∧
      sourceLeg.amount = quote.sourceAmount ∧ targetLeg.amount = quote.grossTargetAmount ∧
      sourceLeg.id ≠ targetLeg.id
  /-- They are no other quote's. -/
  own : ∀ q q' quote quote' leg, d.quotes.rows q = some quote → d.quotes.rows q' = some quote' →
    hasLeg quote leg → hasLeg quote' leg → q = q'
  /-- A call has returned the legs that its quote is paid with. -/
  returned : ∀ i call result, d.calls i = some call → call.pc = .returned result →
    d.Returned accounts call.input result

/-- What a call goes on to do, for a quote that is used under its reference: return the legs. -/
structure Repeats (accounts : PlatformAccounts) (d : Desk ι) (i : ι) (call : Call)
    (quote : FxQuote) (sourceLeg targetLeg : LedgerTransaction) : Prop where
  getQuote : call.pc = .getQuote → (∀ userId, call.input.userId = some userId →
    quote.userId = userId) → ∃ ids, d.advance accounts i call = some (d.goto i call (.lockQuote ids))
  lockQuote : ∀ ids, call.pc = .lockQuote ids → d.quotes.Free i call.input.quoteId →
    ∃ d', d.advance accounts i call = some d' ∧ d'.calls i = some { call with pc := .replay quote }
  replay : ∀ other, call.pc = .replay other → d.advance accounts i call =
    some (d.goto i call (.commit ⟨quote, sourceLeg, targetLeg, true⟩))
  commit : ∀ result, call.pc = .commit result → d.advance accounts i call =
      some ((d.commit i).goto i call (.returned result)) ∧
    result.quote = quote ∧ result.sourceLeg = sourceLeg ∧ result.targetLeg = targetLeg

/-- What a step can do. -/
structure Proceeds (a : Action ι) (d d' : Desk ι) : Prop where
  /-- A used quote stays as it is. -/
  used : ∀ q quote, d.quotes.rows q = some quote → quote.consumedAt.isSome →
    d'.quotes.rows q = some quote
  posted : ∀ id posting, d.postings.rows id = some posting → d'.postings.rows id = some posting
  /-- A quote is used by the commit of a call that has locked it and has found it unused and valid. -/
  uses : ∀ q quote, d'.quotes.rows q = some quote → quote.consumedAt.isSome →
    d.quotes.rows q ≠ some quote → ∃ i call result unused checkedAt, a = .advance i ∧
      d.calls i = some call ∧ call.input.quoteId = q ∧ call.pc = .commit result ∧
      result.quote = quote ∧ quote.conversionReference = some call.input.reference ∧
      d.quotes.holder q = some i ∧ d.quotes.rows q = some unused ∧ unused.consumedAt = none ∧
      d.checkedAt i = some checkedAt ∧ checkedAt < unused.expiresAt
  /-- It has been checked under the lock. -/
  checks : ∀ i, d'.checkedAt i ≠ d.checkedAt i → ∃ call ids unused, a = .advance i ∧
    d.calls i = some call ∧ call.pc = .lockQuote ids ∧
    d'.quotes.holder call.input.quoteId = some i ∧
    d.quotes.rows call.input.quoteId = some unused ∧ unused.consumedAt = none ∧
    d.now < unused.expiresAt ∧ d'.checkedAt i = some d.now
  /-- A call changes nothing before it returns. -/
  fails : ∀ i call, a.caller = some i → d.calls i = some call →
    (∀ result, d'.calls i ≠ some { call with pc := .returned result }) →
    d'.quotes.rows = d.quotes.rows ∧ d'.postings.rows = d.postings.rows
  /-- A call ends once. -/
  ended : ∀ i call, d.calls i = some call → call.pc.isOver = true → d'.calls i = some call

theorem Inv.converted (inv : d.Inv accounts) : d.Converted accounts where
  legs q quote there used := by
    obtain ⟨input, sourceLeg, targetLeg, paid⟩ := inv.rows.paid q quote there used
    refine ⟨input, sourceLeg, targetLeg, paid, ?_, ?_, paid.apart⟩
    · rw [paid.source.amount inv.rows, debits_sourceLeg]
    · rw [paid.target.amount inv.rows, debits_targetLeg]
  own q q' quote quote' leg := inv.rows.own
  returned i call result here at_ := by
    have holds := inv.calls i call here
    rw [at_] at holds
    exact holds.2

theorem Inv.repeats (inv : d.Inv accounts) (here : d.calls i = some call)
    (there : d.quotes.rows call.input.quoteId = some quote)
    (same : quote.conversionReference = some call.input.reference)
    (paid : Paid accounts d.postings.rows quote input sourceLeg targetLeg) :
    d.Repeats accounts i call quote sourceLeg targetLeg where
  getQuote at_ owner := by
    refine ⟨conversionAccounts accounts quote, ?_⟩
    simp only [Desk.advance, at_, there]
    rw [if_neg]
    · rfl
    · cases user : call.input.userId with
      | none => simp
      | some userId => simpa using owner userId user
  lockQuote ids at_ free := by
    have holds := inv.calls i call here
    rw [at_] at holds
    simp only [Desk.advance, at_, RowStore.view_of_not_held (holds.1.quotes _), there]
    rw [if_pos free, Desk.checkQuote, if_pos (Option.isSome_iff_ne_none.mp paid.consumedAt),
      if_pos same]
    exact ⟨_, rfl, calls_goto_self⟩
  replay other at_ := by
    obtain ⟨input', sourceLeg', targetLeg', paid', goes⟩ := inv.replay here at_
    have holds := inv.calls i call here
    rw [at_] at holds
    obtain rfl := Option.some.inj (there.symm.trans holds.2.2.1)
    obtain ⟨rfl, rfl⟩ := paid.unique paid'
    exact goes
  commit result at_ := by
    have done : d.Done accounts i call.input result := by
      have holds := inv.calls i call here
      rw [at_] at holds
      exact holds
    refine ⟨by simp only [Desk.advance, at_], ?_⟩
    have unchanged : result.quote = quote := by
      rcases done.before with committed | ⟨unused, before, unconsumed, -⟩
      · exact Option.some.inj (committed.symm.trans there)
      · obtain rfl := Option.some.inj (before.symm.trans there)
        have used := paid.consumedAt
        rw [unconsumed] at used
        cases used
    obtain ⟨original, again⟩ := done.paid
    rw [unchanged] at again
    exact ⟨unchanged,
      again.unique (paid.mono fun _ _ => inv.rows.postings.view_of_rows)⟩

theorem calls_of_ended {a : Action ι} (stepped : Desk.step accounts a d = some d')
    (here : d.calls i = some call) (closed : call.pc.isOver = true) : d'.calls i = some call := by
  rcases calls_step stepped with same | ⟨j, after, moved, open_⟩
  · rw [same]
    exact here
  · have other : i ≠ j := by
      rintro rfl
      rw [open_ call here] at closed
      cases closed
    rw [moved, Function.update_of_ne other]
    exact here

/-- Nothing is committed. -/
theorem Proceeds.of_rows {a : Action ι} (stepped : Desk.step accounts a d = some d')
    (quotes : d'.quotes.rows = d.quotes.rows) (postings : d'.postings.rows = d.postings.rows)
    (checks : ∀ i, d'.checkedAt i ≠ d.checkedAt i → ∃ call ids unused, a = .advance i ∧
      d.calls i = some call ∧ call.pc = .lockQuote ids ∧
      d'.quotes.holder call.input.quoteId = some i ∧
      d.quotes.rows call.input.quoteId = some unused ∧ unused.consumedAt = none ∧
      d.now < unused.expiresAt ∧ d'.checkedAt i = some d.now) : d.Proceeds a d' where
  used q quote there _ := by rwa [quotes]
  posted id posting there := by rwa [postings]
  uses q quote there _ new := by
    rw [quotes] at there
    exact (new there).elim
  checks := checks
  fails _ _ _ _ _ := ⟨quotes, postings⟩
  ended _ _ here closed := calls_of_ended stepped here closed

theorem Inv.commits {result : ConversionResult} (inv : d.Inv accounts)
    (here : d.calls i = some call) (at_ : call.pc = .commit result)
    (stepped : Desk.step accounts (.advance i) d =
      some ((d.commit i).goto i call (.returned result))) :
    d.Proceeds (.advance i) ((d.commit i).goto i call (.returned result)) := by
  have done : d.Done accounts i call.input result := by
    have holds := inv.calls i call here
    rw [at_] at holds
    exact holds
  have may := done.mayCommit inv.rows
  constructor
  · intro q quote there used
    by_cases mine : d.quotes.holder q = some i
    · obtain ⟨quote', seen, -, same⟩ := may.kept q quote mine there
      exact seen.trans (congrArg some (same used))
    · exact (RowStore.view_of_not_held mine).trans there
  · intro id posting there
    exact inv.rows.postings.view_of_rows there
  · intro q quote there used new
    have there : d.quotes.view i q = some quote := there
    by_cases mine : d.quotes.holder q = some i
    · obtain rfl := done.only q mine
      obtain rfl := Option.some.inj (done.view.symm.trans there)
      rcases done.before with committed | ⟨unused, before, unconsumed, checkedAt, checked, valid⟩
      · exact (new committed).elim
      · exact ⟨i, call, result, unused, checkedAt, rfl, here, rfl, at_, rfl, done.reference, mine,
          before, unconsumed, checked, valid⟩
    · rw [RowStore.view_of_not_held mine] at there
      exact (new there).elim
  · intro j changed
    exact (changed rfl).elim
  · intro j call' same there open_
    obtain rfl : i = j := Option.some.inj same
    obtain rfl := Option.some.inj (here.symm.trans there)
    exact (open_ result calls_goto_self).elim
  · exact fun _ _ there closed => calls_of_ended stepped there closed

theorem Inv.proceeds {a : Action ι} (inv : d.Inv accounts)
    (stepped : Desk.step accounts a d = some d') : d.Proceeds a d' := by
  cases inv.effect stepped with
  | stays stays =>
    apply Proceeds.of_rows stepped stays.quotes stays.postings
    intro i changed
    rw [stays.checkedAt] at changed
    exact (changed rfl).elim
  | @checks i call ids here at_ checks =>
    apply Proceeds.of_rows stepped checks.quotes checks.postings
    intro j changed
    rw [checks.checkedAt] at changed
    obtain rfl : j = i := by
      by_contra other
      exact changed (Function.update_of_ne other ..)
    have holds := inv.calls j call here
    rw [at_] at holds
    obtain ⟨quote, seen, unconsumed, valid⟩ := checks.offer
    rw [RowStore.view_of_not_held (holds.1.quotes _)] at seen
    refine ⟨call, ids, quote, rfl, here, at_, checks.holder, seen, unconsumed, valid, ?_⟩
    rw [checks.checkedAt, Function.update_self]
  | @converts i call result here at_ after =>
    subst after
    exact inv.commits here at_ stepped
  | @saves i quote new fresh unused quotes postings checkedAt =>
    have others : ∀ q, q ≠ quote.id → d'.quotes.rows q = d.quotes.rows q := by
      intro q other
      rw [quotes, Function.update_of_ne other]
    constructor
    · intro q quote' there used
      rw [others q]
      · exact there
      · rintro rfl
        rw [fresh] at there
        cases there
    · intro id posting there
      rwa [postings]
    · intro q quote' there used changed
      by_cases here : q = quote.id
      · subst here
        rw [quotes, Function.update_self] at there
        obtain rfl := Option.some.inj there
        rw [← unused] at used
        cases used
      · rw [others q here] at there
        exact (changed there).elim
    · intro j changed
      rw [checkedAt] at changed
      exact (changed rfl).elim
    · intro j call same there
      obtain rfl : i = j := Option.some.inj same
      rw [new] at there
      cases there
    · exact fun _ _ there closed => calls_of_ended stepped there closed
  | @posts i id input posting new fresh quotes postings checkedAt =>
    constructor
    · intro q quote there used
      rwa [quotes]
    · intro id' posting' there
      rw [postings, Function.update_of_ne]
      · exact there
      · rintro rfl
        rw [fresh] at there
        cases there
    · intro q quote there used changed
      rw [quotes] at there
      exact (changed there).elim
    · intro j changed
      rw [checkedAt] at changed
      exact (changed rfl).elim
    · intro j call same there
      obtain rfl : i = j := Option.some.inj same
      rw [new] at there
      cases there
    · exact fun _ _ there closed => calls_of_ended stepped there closed

/-! ## Every run -/

theorem Reaches.inv {now : Nat} (reaches : Reaches accounts Schedule.Any (.start now) d) :
    d.Inv accounts :=
  Schedule.Reaches.invariant reaches (Inv accounts)
    (fun _ _ _ inv _ stepped => inv.step stepped) (.start now)

end Desk

/-- Quotes are used once, each for two legs of its own, by conversions that have found them unused
and valid; repeats return the legs, and failures leave nothing. -/
theorem convert_once {now : Nat} (reaches : Desk.Reaches accounts Schedule.Any (.start now) d) :
    d.Converted accounts ∧
    (∀ i call quote input sourceLeg targetLeg, d.calls i = some call →
      d.quotes.rows call.input.quoteId = some quote →
      quote.conversionReference = some call.input.reference →
      Paid accounts d.postings.rows quote input sourceLeg targetLeg →
      d.Repeats accounts i call quote sourceLeg targetLeg) ∧
    ∀ a d', Desk.step accounts a d = some d' → d.Proceeds a d' := by
  have inv := Desk.Reaches.inv reaches
  refine ⟨inv.converted, ?_, fun _ _ => inv.proceeds⟩
  intro i call quote input sourceLeg targetLeg here there same paid
  exact inv.repeats here there same paid

/-- One position, clearing and revenue account in every currency. -/
def platform : PlatformAccounts :=
  { externalClearing := fun _ => 1
    fxPosition := fun _ => 2
    feeRevenue := fun _ => 3
    fxRevenue := fun _ => 4 }

/-- Dollars for 15 500 naira, with a dime of spread. -/
def naira : FxQuote :=
  { id := 10
    userId := none
    sourceCurrency := "NGN"
    targetCurrency := "USD"
    sourceAmount := 1550000
    targetAmount := 990
    grossTargetAmount := 1000
    expiresAt := 100 }

def exchange : ConvertInput := ⟨10, "swap", "Swap", 5, 6, none⟩

/-- Two calls for one quote under one reference return the same legs. -/
theorem convert_once_twice : ∃ d : Desk Nat,
    Desk.Reaches platform Schedule.Any (.start 0) d ∧
      (d.calls 0).any (fun call => call.pc matches .returned ⟨_, _, _, false⟩) = true ∧
      (d.calls 1).any (fun call => call.pc matches .returned ⟨_, _, _, true⟩) = true ∧
      d.Converted platform := by
  have ran : ((Schedule.run (Desk.step platform) Schedule.Any
      [.quote 2 naira, .convert 0 exchange, .convert 1 exchange, .advance 0, .advance 1,
        .advance 0, .advance 0, .insert 0 20, .advance 0, .insert 0 21, .advance 0, .advance 0,
        .advance 1, .advance 1, .advance 1] (.start 0)).map fun d : Desk Nat => decide
      ((d.calls 0).any (fun call => call.pc matches .returned ⟨_, _, _, false⟩) = true ∧
        (d.calls 1).any (fun call => call.pc matches .returned ⟨_, _, _, true⟩) = true)) =
      some true := by
    decide +kernel
  obtain ⟨d, run, seen⟩ := Option.map_eq_some_iff.mp ran
  obtain ⟨first, second⟩ := of_decide_eq_true seen
  have reaches : Desk.Reaches platform Schedule.Any (.start 0) d := Schedule.reaches_of_run run
  exact ⟨d, reaches, first, second, (convert_once reaches).1⟩

end Finstack.Fx
