import Finstack.Soundness.Fx.Statements

/-! # The steps of conversions

Every step keeps what the calls know and what is stored, and what each can do to the committed rows.
-/

namespace Finstack.Fx

open Foundation

variable {ι : Type} [DecidableEq ι] {accounts : PlatformAccounts} {d d' : Desk ι} {i j : ι}
  {call : Call} {pc : Pc} {quote : FxQuote} {q id : Uuid} {input : ConvertInput}
  {posting : PostingInput} {transaction : LedgerTransaction} {next : Next}

/-! ## Postings -/

theorem answers_of_replayResult {existing : Posting} {answer : PostedTransaction}
    (named : hasReference posting.reference existing = true)
    (replays : LedgerService.replayResult posting existing.transaction existing.entries =
      .ok answer) :
    answer.transaction = existing.transaction ∧ existing.Answers posting := by
  unfold LedgerService.replayResult at replays
  split_ifs at replays with conflict
  obtain rfl := Except.ok.inj replays
  simp only [not_or, not_not] at conflict
  exact ⟨rfl, of_decide_eq_true named, conflict.1, conflict.2.1, conflict.2.2⟩

theorem newPosting_answers (id : Uuid) (posting : PostingInput) (amount : Int) :
    (newPosting id posting amount).Answers posting := by
  refine ⟨rfl, rfl, rfl, ?_⟩
  rw [newPosting, LedgerService.map_postingEntry_newEntries]

namespace Desk

theorem seen_of_findPosting {reference : String} {existing : Posting}
    (finds : d.findPosting i reference = some existing) :
    ∃ id, d.postings.view i id = some existing ∧ hasReference reference existing = true := by
  obtain ⟨id, -, found⟩ := List.exists_of_findSome?_eq_some finds
  exact ⟨id, Option.filter_eq_some_iff.mp found⟩

/-- A posting is there, and the conversion goes on. -/
theorem holds_posted (holds : d.HoldsNext accounts i input posting next)
    (stored : Stored (d.postings.view i) transaction posting) :
    d.Holds accounts i input (posted input transaction next) := by
  cases next with
  | target ids quote =>
    obtain ⟨unused, rfl, rfl⟩ := holds
    exact ⟨unused, rfl, stored⟩
  | update quote sourceLeg =>
    obtain ⟨unused, rfl, source⟩ := holds
    exact ⟨unused, source, stored⟩
  | commit result => exact holds

/-- The call itself has added a posting. -/
theorem HoldsNext.more (holds : d.HoldsNext accounts i input posting next)
    (quotes : d'.quotes = d.quotes) (checkedAt : d'.checkedAt = d.checkedAt)
    (more : ∀ id posting, d.postings.view i id = some posting →
      d'.postings.view i id = some posting) : d'.HoldsNext accounts i input posting next := by
  have unused : ∀ quote, d.Unused i input.quoteId quote → d'.Unused i input.quoteId quote := by
    intro quote unused
    constructor
    · rw [quotes]; exact unused.holder
    · rw [quotes]; exact unused.row
    · rw [quotes]; exact unused.view
    · exact unused.unconsumed
    · rw [checkedAt]; exact unused.valid
    · rw [quotes]; exact unused.only
  cases next with
  | target ids quote => exact ⟨unused quote holds.1, holds.2⟩
  | update quote sourceLeg => exact ⟨unused quote holds.1, holds.2.1, holds.2.2.mono more⟩
  | commit result =>
    obtain ⟨original, paid⟩ := holds.paid
    constructor
    · rw [quotes]; exact holds.holder
    · rw [quotes]; exact holds.view
    · exact holds.reference
    · exact ⟨original, paid.mono more⟩
    · rw [quotes, checkedAt]; exact holds.before
    · rw [quotes]; exact holds.only

/-! ## The statements of a call -/

theorem Inv.checkQuote (inv : d.Inv accounts) (idle : d.Idle i)
    (there : d.quotes.rows call.input.quoteId = some quote)
    (free : d.quotes.Free i call.input.quoteId) :
    (d.checkQuote i call (conversionAccounts accounts quote) quote).Inv accounts := by
  have known : call.input.quoteId ∈ d.quoteIds := inv.rows.quotes.within.of_shows (.inl there)
  have unheld := idle.quotes
  have seen : (d.quotes.lock i call.input.quoteId).view i call.input.quoteId = some quote :=
    (RowStore.view_lock_self (unheld _)).trans there
  have row : (d.quotes.lock i call.input.quoteId).rows call.input.quoteId = some quote :=
    (congrFun RowStore.rows_lock _).trans there
  have only : ∀ l, (d.quotes.lock i call.input.quoteId).holder l = some i →
      l = call.input.quoteId := by
    intro l mine
    by_contra other
    rw [RowStore.holder_lock_ne other] at mine
    exact unheld l mine
  have quotes := inv.rows.quotes.lock free known
  have keeps : ∀ j, j ≠ i → d.quotes.Keeps (d.quotes.lock i call.input.quoteId) j :=
    fun j other => RowStore.keeps_lock other free
  unfold Desk.checkQuote
  split_ifs with used mine expired
  · exact inv.put_call (.quiet inv.rows quotes inv.rows.postings RowStore.rows_lock rfl keeps
      (fun j _ => .refl _ j) (d.others_goto call _)) calls_goto_self
      ⟨RowStore.holder_lock_self, seen, row, Option.isSome_iff_ne_none.mpr used, mine, only⟩
  · exact inv.throw call _
  · exact inv.throw call _
  · refine inv.put_call (.quiet inv.rows quotes inv.rows.postings RowStore.rows_lock rfl keeps
      (fun j _ => .refl _ j) fun j other => ?_) calls_goto_self ?_
    · exact ⟨(d.others_goto call _ j other).1, Function.update_of_ne other ..⟩
    · refine ⟨⟨RowStore.holder_lock_self, row, seen, not_not.mp used, ⟨d.now, ?_, ?_⟩, only⟩,
        rfl, rfl⟩
      · exact Function.update_self ..
      · omega

/-- A used quote's legs are there to be returned. -/
theorem Inv.replay (inv : d.Inv accounts) (here : d.calls i = some call)
    (at_ : call.pc = .replay quote) :
    ∃ input sourceLeg targetLeg, Paid accounts d.postings.rows quote input sourceLeg targetLeg ∧
      d.advance accounts i call =
        some (d.goto i call (.commit ⟨quote, sourceLeg, targetLeg, true⟩)) := by
  have holds := inv.calls i call here
  rw [at_] at holds
  obtain ⟨-, -, there, used, -, -⟩ := holds
  obtain ⟨input, sourceLeg, targetLeg, paid⟩ := inv.rows.paid _ quote there used
  refine ⟨input, sourceLeg, targetLeg, paid, ?_⟩
  obtain ⟨source, atSource, rfl, -⟩ := paid.source
  obtain ⟨target, atTarget, rfl, -⟩ := paid.target
  simp only [Desk.advance, at_, paid.sourceId, paid.targetId, Option.bind_some,
    inv.rows.postings.view_of_rows atSource, inv.rows.postings.view_of_rows atTarget]

theorem Inv.find (inv : d.Inv accounts) (here : d.calls i = some call)
    (at_ : call.pc = .find posting next) (advances : d.advance accounts i call = some d') :
    d'.Inv accounts := by
  have holds := inv.calls i call here
  rw [at_] at holds
  simp only [Desk.advance, at_] at advances
  split at advances
  next error invalid =>
    obtain rfl := Option.some.inj advances
    exact inv.throw call error
  next amount valid =>
    split at advances
    next missing =>
      obtain rfl := Option.some.inj advances
      exact inv.goto ⟨valid, holds⟩
    next existing finds =>
      split at advances
      next error conflicts =>
        obtain rfl := Option.some.inj advances
        exact inv.throw call error
      next answer replays =>
        obtain rfl := Option.some.inj advances
        obtain ⟨id, seen, named⟩ := seen_of_findPosting finds
        obtain ⟨same, answers⟩ := answers_of_replayResult named replays
        apply inv.goto
        apply holds_posted holds
        rw [same]
        refine ⟨existing, ?_, rfl, answers⟩
        rw [inv.rows.postings.named id existing (RowStore.shows_of_view seen)]
        exact seen

theorem Inv.update {sourceLeg targetLeg : LedgerTransaction} (inv : d.Inv accounts)
    (here : d.calls i = some call) (at_ : call.pc = .update quote sourceLeg targetLeg)
    (advances : d.advance accounts i call = some d') : d'.Inv accounts := by
  have holds := inv.calls i call here
  rw [at_] at holds
  obtain ⟨unused, source, target⟩ := holds
  simp only [Desk.advance, at_] at advances
  split_ifs at advances with taken waits
  · obtain rfl := Option.some.inj advances
    exact inv.throw call _
  · obtain rfl := Option.some.inj advances
    have free : d.quotes.Free i call.input.quoteId := .inr unused.holder
    have shown := RowStore.shows_of_view unused.view
    have quotes : QuoteRows (d.quotes.write i call.input.quoteId (some
        (consume quote d.now call.input.reference sourceLeg.id targetLeg.id))) d.quoteIds := by
      apply inv.rows.quotes.write free (inv.rows.quotes.within.of_shows shown)
      · intro reference converts
        obtain rfl := Option.some.inj converts
        exact RowStore.clear_of_not_taken inv.rows.quotes.within taken waits
      · exact fun a there => inv.rows.quotes.offers _ a quote there shown
      · exact fun unconsumed => nomatch unconsumed
    refine inv.put_call (.quiet inv.rows quotes inv.rows.postings RowStore.rows_write rfl
      (fun j other => RowStore.keeps_write other free) (fun j _ => .refl _ j)
      (d.others_goto call _)) calls_goto_self ?_
    refine ⟨RowStore.holder_write_self, RowStore.view_write_self, rfl,
      ⟨call.input, rfl, rfl, rfl, rfl, source, target⟩,
      .inr ⟨quote, unused.row, unused.unconsumed, unused.valid⟩, ?_⟩
    intro l mine
    by_contra other
    have mine : (d.quotes.write i call.input.quoteId _).holder l = some i := mine
    rw [RowStore.holder_write_ne other] at mine
    exact other (unused.only l mine)

/-- What a conversion has made of its quote is paid for. -/
theorem Done.mayCommit {result : ConversionResult} (rows : d.Rows accounts)
    (done : d.Done accounts i input result) : d.MayCommit accounts i where
  paid q quote mine seen _ := by
    obtain rfl := done.only q mine
    obtain rfl := Option.some.inj (done.view.symm.trans seen)
    obtain ⟨original, paid⟩ := done.paid
    exact ⟨original, _, _, paid⟩
  kept q quote mine there := by
    obtain rfl := done.only q mine
    refine ⟨result.quote, done.view,
      rows.quotes.offers _ _ _ (RowStore.shows_of_view done.view) (.inl there), fun used => ?_⟩
    rcases done.before with same | ⟨unused, before, unconsumed, -⟩
    · exact Option.some.inj (same.symm.trans there)
    · obtain rfl := Option.some.inj (before.symm.trans there)
      rw [unconsumed] at used
      cases used

theorem Inv.commit {result : ConversionResult} (inv : d.Inv accounts)
    (here : d.calls i = some call) (at_ : call.pc = .commit result) :
    ((d.commit i).goto i call (.returned result)).Inv accounts := by
  have done : d.Done accounts i call.input result := by
    have holds := inv.calls i call here
    rw [at_] at holds
    exact holds
  have commits := Moves.commit inv.rows (done.mayCommit inv.rows)
  refine inv.put_call (commits.trans (.goto commits.rows ..)) calls_goto_self ?_
  exact ⟨(Frame.goto _ call _).idle idle_commit, done.view, done.reference, done.paid⟩

theorem Inv.advance (inv : d.Inv accounts) (here : d.calls i = some call)
    (advances : d.advance accounts i call = some d') : d'.Inv accounts := by
  have holds := inv.calls i call here
  cases at_ : call.pc with
  | getQuote =>
    rw [at_] at holds
    simp only [Desk.advance, at_] at advances
    split at advances
    next =>
      obtain rfl := Option.some.inj advances
      exact inv.throw call _
    next preview there =>
      split_ifs at advances
      · obtain rfl := Option.some.inj advances
        exact inv.throw call _
      · obtain rfl := Option.some.inj advances
        exact inv.goto ⟨holds, preview, there, rfl⟩
  | lockQuote ids =>
    rw [at_] at holds
    obtain ⟨idle, quote, there, rfl⟩ := holds
    simp only [Desk.advance, at_, RowStore.view_of_not_held (idle.quotes _), there] at advances
    split_ifs at advances with free
    obtain rfl := Option.some.inj advances
    exact inv.checkQuote idle there free
  | replay quote =>
    rw [at_] at holds
    obtain ⟨original, sourceLeg, targetLeg, paid, goes⟩ := inv.replay here at_
    obtain rfl := Option.some.inj (goes.symm.trans advances)
    obtain ⟨holder, view, there, -, reference, only⟩ := holds
    exact inv.goto ⟨holder, view, reference,
      ⟨original, paid.mono fun _ _ => inv.rows.postings.view_of_rows⟩, .inl there, only⟩
  | find posting next => exact inv.find here at_ advances
  | update quote sourceLeg targetLeg => exact inv.update here at_ advances
  | commit result =>
    simp only [Desk.advance, at_] at advances
    obtain rfl := Option.some.inj advances
    exact inv.commit here at_
  | insert | returned | threw | crashed => simp only [Desk.advance, at_, reduceCtorEq] at advances

theorem Inv.insert (inv : d.Inv accounts) (here : d.calls i = some call)
    (inserts : d.insert i id call = some d') : d'.Inv accounts := by
  have holds := inv.calls i call here
  unfold Desk.insert at inserts
  split at inserts
  next posting amount next at_ =>
    rw [at_] at holds
    split_ifs at inserts with used taken waits
    · obtain rfl := Option.some.inj inserts
      exact inv.throw call _
    · obtain rfl := Option.some.inj inserts
      obtain ⟨valid, holds⟩ := holds
      have postings := inv.rows.postings
      have free : d.postings.Free i id := .inl (postings.within id used).2
      have clear := RowStore.clear_of_not_taken postings.within taken waits
      refine inv.put_call (.quiet inv.rows inv.rows.quotes (postings.insert used valid clear) rfl
        RowStore.rows_write (fun j _ => .refl _ j) (fun j other => RowStore.keeps_write other free)
        (d.others_goto call _)) calls_goto_self ?_
      apply holds_posted
      · refine holds.more rfl rfl ?_
        intro l posting seen
        have other : l ≠ id := by
          rintro rfl
          exact used (postings.within.of_shows (RowStore.shows_of_view seen))
        exact (RowStore.view_write_ne other).trans seen
      · exact ⟨_, RowStore.view_write_self, rfl, newPosting_answers id posting amount⟩
  next => cases inserts

/-! ## Everyone else -/

theorem Inv.tick (inv : d.Inv accounts) (now : Nat) : ({ d with now } : Desk ι).Inv accounts :=
  have same : ∀ j, d.Frame { d with now } j := fun j =>
    ⟨.refl _ j, .refl _ j, fun _ quote there => ⟨quote, there, rfl⟩, fun _ _ there _ => there,
      fun _ _ there => there, rfl⟩
  ⟨⟨inv.rows.quotes, inv.rows.postings, inv.rows.paid⟩,
    fun j new => (same j).idle (inv.idle j new),
    fun j call here => (inv.calls j call here).frame (same j)⟩

/-- A step of a transaction that is no conversion. -/
theorem Inv.outside (inv : d.Inv accounts) (new : d.calls i = none)
    (moves : Moves accounts d d' i) (calls : d'.calls i = d.calls i) (idle : d'.Idle i) :
    d'.Inv accounts := by
  apply inv.put moves
  · exact fun _ => idle
  · intro call there
    rw [calls, new] at there
    cases there

theorem offer_of_isNewQuote (new : isNewQuote quote = true) : offer quote = quote := by
  simp only [isNewQuote, Bool.and_eq_true, Option.isNone_iff_eq_none] at new
  obtain ⟨⟨⟨⟨-, consumedAt⟩, conversionReference⟩, source⟩, target⟩ := new
  cases quote
  simp_all [offer]

theorem Inv.saveQuote (inv : d.Inv accounts) (new : d.calls i = none) (fresh : quote.id ∉ d.quoteIds)
    (unused : offer quote = quote) :
    ({ d with
      quoteIds := quote.id :: d.quoteIds
      quotes := (d.quotes.write i quote.id (some quote)).commit i } : Desk ι).Inv accounts := by
  have idle := inv.idle i new
  have writes : Moves accounts d { d with
      quoteIds := quote.id :: d.quoteIds
      quotes := d.quotes.write i quote.id (some quote) } i :=
    .quiet inv.rows (inv.rows.quotes.insert fresh unused) inv.rows.postings rfl rfl
      (fun j other => RowStore.keeps_write other (.inl (inv.rows.quotes.within _ fresh).2))
      (fun j _ => .refl _ j) fun _ _ => ⟨rfl, rfl⟩
  have only : ∀ q, (d.quotes.write i quote.id (some quote)).holder q = some i → q = quote.id := by
    intro q mine
    by_contra other
    rw [RowStore.holder_write_ne other] at mine
    exact idle.quotes q mine
  have commits := Moves.commit writes.rows {
    paid := fun q quote' mine seen used => by
      obtain rfl := only q mine
      have seen : (d.quotes.write i quote.id (some quote)).view i quote.id = some quote' := seen
      rw [RowStore.view_write_self] at seen
      obtain rfl := Option.some.inj seen
      rw [← unused] at used
      cases used
    kept := fun q quote' mine there => by
      obtain rfl := only q mine
      have there : d.quotes.rows quote.id = some quote' := there
      rw [(inv.rows.quotes.within _ fresh).1] at there
      cases there }
  have none_posted : d.postings.commit i = d.postings :=
    RowStore.commit_of_unheld idle.postings
  have moves := writes.trans commits
  simp only [Desk.commit, none_posted] at moves
  apply inv.outside new moves rfl
  exact ⟨(idle_commit (d := { d with quotes := d.quotes.write i quote.id (some quote) })).quotes,
    idle.postings⟩

theorem Inv.post {amount : Int} (inv : d.Inv accounts) (new : d.calls i = none)
    (fresh : id ∉ d.postingIds) (valid : validatePosting posting = .ok amount)
    (clear : d.postings.Clear (hasReference posting.reference) i id) :
    ({ d with
      postingIds := id :: d.postingIds
      postings := (d.postings.write i id (some (newPosting id posting amount))).commit i } :
        Desk ι).Inv accounts := by
  have idle := inv.idle i new
  have writes : Moves accounts d { d with
      postingIds := id :: d.postingIds
      postings := d.postings.write i id (some (newPosting id posting amount)) } i :=
    .quiet inv.rows inv.rows.quotes (inv.rows.postings.insert fresh valid clear) rfl rfl
      (fun j _ => .refl _ j)
      (fun j other => RowStore.keeps_write other (.inl (inv.rows.postings.within _ fresh).2))
      fun _ _ => ⟨rfl, rfl⟩
  have commits := Moves.commit writes.rows {
    paid := fun q _ mine _ _ => (idle.quotes q mine).elim
    kept := fun q _ mine _ => (idle.quotes q mine).elim }
  have none_saved : d.quotes.commit i = d.quotes := RowStore.commit_of_unheld idle.quotes
  have moves := writes.trans commits
  simp only [Desk.commit, none_saved] at moves
  apply inv.outside new moves rfl
  exact ⟨idle.quotes, fun l mine => (RowStore.holder_commit.mp mine).2 rfl⟩

theorem Inv.start (now : Nat) : (Desk.start now : Desk ι).Inv accounts where
  rows := ⟨.start, .start, by simp [Desk.start, RowStore.start]⟩
  idle _ _ := ⟨by simp [Desk.start, RowStore.start], by simp [Desk.start, RowStore.start]⟩
  calls := by simp [Desk.start]

theorem Inv.step {a : Action ι} (inv : d.Inv accounts)
    (stepped : Desk.step accounts a d = some d') : d'.Inv accounts := by
  cases a with
  | tick now =>
    simp only [Desk.step, Option.ite_none_right_eq_some] at stepped
    obtain ⟨-, stepped⟩ := stepped
    obtain rfl := Option.some.inj stepped
    exact inv.tick now
  | quote i quote =>
    simp only [Desk.step, Option.ite_none_right_eq_some] at stepped
    obtain ⟨⟨new, fresh, isNew⟩, stepped⟩ := stepped
    obtain rfl := Option.some.inj stepped
    exact inv.saveQuote new fresh (offer_of_isNewQuote isNew)
  | post i id posting =>
    simp only [Desk.step] at stepped
    split at stepped
    · cases stepped
    next amount valid =>
      simp only [Option.ite_none_right_eq_some] at stepped
      obtain ⟨⟨new, fresh, taken, waits⟩, stepped⟩ := stepped
      obtain rfl := Option.some.inj stepped
      exact inv.post new fresh valid
        (RowStore.clear_of_not_taken inv.rows.postings.within taken waits)
  | convert i input =>
    simp only [Desk.step, Option.ite_none_right_eq_some] at stepped
    obtain ⟨new, stepped⟩ := stepped
    obtain rfl := Option.some.inj stepped
    exact inv.goto (inv.idle i new)
  | advance i =>
    obtain ⟨call, here, advances⟩ := Option.bind_eq_some_iff.mp stepped
    exact inv.advance here advances
  | insert i id =>
    obtain ⟨call, here, inserts⟩ := Option.bind_eq_some_iff.mp stepped
    exact inv.insert here inserts
  | also i posting =>
    obtain ⟨call, here, goes⟩ := Option.bind_eq_some_iff.mp stepped
    split at goes
    next result at_ =>
      obtain rfl := Option.some.inj goes
      have holds := inv.calls i call here
      rw [at_] at holds
      exact inv.goto holds
    next => cases goes
  | refuse i error =>
    obtain ⟨call, here, throws⟩ := Option.bind_eq_some_iff.mp stepped
    split_ifs at throws
    obtain rfl := Option.some.inj throws
    exact inv.throw call error
  | crash i =>
    obtain ⟨call, here, crashes⟩ := Option.bind_eq_some_iff.mp stepped
    split_ifs at crashes
    obtain rfl := Option.some.inj crashes
    exact inv.put_call ((Moves.rollback inv.rows).trans (.goto (Moves.rollback inv.rows).rows ..))
      calls_goto_self ((Frame.goto _ call _).idle idle_rollback)

/-! ## What a step does to the rows -/

/-- Whose step it is. -/
def Action.caller : Action ι → Option ι
  | .tick _ => none
  | .quote i _ | .post i _ _ | .convert i _ | .advance i | .insert i _ | .also i _ | .refuse i _
  | .crash i => some i

/-- Nothing is committed, and no quote is checked. -/
structure Stays (d d' : Desk ι) : Prop where
  quotes : d'.quotes.rows = d.quotes.rows
  postings : d'.postings.rows = d.postings.rows
  checkedAt : d'.checkedAt = d.checkedAt

/-- The quote is locked, and found to be unused and valid. -/
structure Checks (d d' : Desk ι) (i : ι) (q : Uuid) : Prop where
  quotes : d'.quotes.rows = d.quotes.rows
  postings : d'.postings.rows = d.postings.rows
  holder : d'.quotes.holder q = some i
  offer : ∃ quote, d.quotes.view i q = some quote ∧ quote.consumedAt = none ∧
    d.now < quote.expiresAt
  checkedAt : d'.checkedAt = Function.update d.checkedAt i (some d.now)

theorem stays_goto : d.Stays (d.goto i call pc) := ⟨rfl, rfl, rfl⟩

theorem stays_throw {error : Err} : d.Stays (d.throw i call error) := ⟨rfl, rfl, rfl⟩

theorem stays_checkQuote {ids : FxService.ConversionAccounts}
    (seen : d.quotes.view i call.input.quoteId = some quote) :
    d.Stays (d.checkQuote i call ids quote) ∨
      d.Checks (d.checkQuote i call ids quote) i call.input.quoteId := by
  unfold Desk.checkQuote
  split_ifs with used mine expired
  · exact .inl ⟨RowStore.rows_lock, rfl, rfl⟩
  · exact .inl stays_throw
  · exact .inl stays_throw
  · refine .inr ⟨RowStore.rows_lock, rfl, RowStore.holder_lock_self, ⟨quote, seen, ?_, ?_⟩, rfl⟩
    · exact not_not.mp used
    · omega

theorem calls_checkQuote {ids : FxService.ConversionAccounts} : ∃ after,
    (d.checkQuote i call ids quote).calls = Function.update d.calls i (some after) := by
  unfold Desk.checkQuote
  split_ifs <;> exact ⟨_, rfl⟩

/-- What a statement of the call `i` does. -/
theorem advance_cases (advances : d.advance accounts i call = some d') :
    call.pc.isOver = false ∧ (∃ after, d'.calls = Function.update d.calls i (some after)) ∧
    (d.Stays d' ∨ (∃ ids, call.pc = .lockQuote ids ∧ d.Checks d' i call.input.quoteId) ∨
      ∃ result, call.pc = .commit result ∧ d' = (d.commit i).goto i call (.returned result)) := by
  cases at_ : call.pc with
  | getQuote =>
    simp only [Desk.advance, at_] at advances
    split at advances
    · obtain rfl := Option.some.inj advances
      exact ⟨rfl, ⟨_, rfl⟩, .inl stays_throw⟩
    · split_ifs at advances
      · obtain rfl := Option.some.inj advances
        exact ⟨rfl, ⟨_, rfl⟩, .inl stays_throw⟩
      · obtain rfl := Option.some.inj advances
        exact ⟨rfl, ⟨_, rfl⟩, .inl stays_goto⟩
  | lockQuote ids =>
    simp only [Desk.advance, at_] at advances
    split_ifs at advances with free
    split at advances
    next =>
      obtain rfl := Option.some.inj advances
      exact ⟨rfl, ⟨_, rfl⟩, .inl stays_throw⟩
    next quote seen =>
      obtain rfl := Option.some.inj advances
      rcases stays_checkQuote seen with stays | checks
      · exact ⟨rfl, calls_checkQuote, .inl stays⟩
      · exact ⟨rfl, calls_checkQuote, .inr (.inl ⟨ids, rfl, checks⟩)⟩
  | replay quote =>
    simp only [Desk.advance, at_] at advances
    split at advances
    · obtain rfl := Option.some.inj advances
      exact ⟨rfl, ⟨_, rfl⟩, .inl stays_goto⟩
    · obtain rfl := Option.some.inj advances
      exact ⟨rfl, ⟨_, rfl⟩, .inl stays_throw⟩
  | find posting next =>
    simp only [Desk.advance, at_] at advances
    split at advances
    · obtain rfl := Option.some.inj advances
      exact ⟨rfl, ⟨_, rfl⟩, .inl stays_throw⟩
    · split at advances
      · obtain rfl := Option.some.inj advances
        exact ⟨rfl, ⟨_, rfl⟩, .inl stays_goto⟩
      · split at advances
        · obtain rfl := Option.some.inj advances
          exact ⟨rfl, ⟨_, rfl⟩, .inl stays_throw⟩
        · obtain rfl := Option.some.inj advances
          exact ⟨rfl, ⟨_, rfl⟩, .inl stays_goto⟩
  | update quote sourceLeg targetLeg =>
    simp only [Desk.advance, at_] at advances
    split_ifs at advances
    · obtain rfl := Option.some.inj advances
      exact ⟨rfl, ⟨_, rfl⟩, .inl stays_throw⟩
    · obtain rfl := Option.some.inj advances
      exact ⟨rfl, ⟨_, rfl⟩, .inl ⟨RowStore.rows_write, rfl, rfl⟩⟩
  | commit result =>
    simp only [Desk.advance, at_] at advances
    obtain rfl := Option.some.inj advances
    exact ⟨rfl, ⟨_, rfl⟩, .inr (.inr ⟨result, rfl, rfl⟩)⟩
  | insert | returned | threw | crashed => simp only [Desk.advance, at_, reduceCtorEq] at advances

theorem insert_stays (inserts : d.insert i id call = some d') : d.Stays d' := by
  unfold Desk.insert at inserts
  split at inserts
  · split_ifs at inserts
    · obtain rfl := Option.some.inj inserts
      exact stays_throw
    · obtain rfl := Option.some.inj inserts
      exact ⟨rfl, RowStore.rows_write, rfl⟩
  · cases inserts

/-- What a step does to the committed rows. -/
inductive Effect (d d' : Desk ι) : Action ι → Prop
  | stays {a : Action ι} (stays : d.Stays d') : Effect d d' a
  | saves {i : ι} {quote : FxQuote} (new : d.calls i = none) (fresh : d.quotes.rows quote.id = none)
      (unused : offer quote = quote)
      (quotes : d'.quotes.rows = Function.update d.quotes.rows quote.id (some quote))
      (postings : d'.postings.rows = d.postings.rows) (checkedAt : d'.checkedAt = d.checkedAt) :
      Effect d d' (.quote i quote)
  | posts {i : ι} {id : Uuid} {input : PostingInput} {posting : Posting} (new : d.calls i = none)
      (fresh : d.postings.rows id = none) (quotes : d'.quotes.rows = d.quotes.rows)
      (postings : d'.postings.rows = Function.update d.postings.rows id (some posting))
      (checkedAt : d'.checkedAt = d.checkedAt) : Effect d d' (.post i id input)
  | checks {i : ι} {call : Call} {ids : FxService.ConversionAccounts} (here : d.calls i = some call)
      (at_ : call.pc = .lockQuote ids) (checks : d.Checks d' i call.input.quoteId) :
      Effect d d' (.advance i)
  | converts {i : ι} {call : Call} {result : ConversionResult} (here : d.calls i = some call)
      (at_ : call.pc = .commit result) (after : d' = (d.commit i).goto i call (.returned result)) :
      Effect d d' (.advance i)

theorem Inv.effect {a : Action ι} (inv : d.Inv accounts)
    (stepped : Desk.step accounts a d = some d') : d.Effect d' a := by
  cases a with
  | tick now =>
    simp only [Desk.step, Option.ite_none_right_eq_some] at stepped
    obtain ⟨-, stepped⟩ := stepped
    obtain rfl := Option.some.inj stepped
    exact .stays ⟨rfl, rfl, rfl⟩
  | quote i quote =>
    simp only [Desk.step, Option.ite_none_right_eq_some] at stepped
    obtain ⟨⟨new, fresh, isNew⟩, stepped⟩ := stepped
    obtain rfl := Option.some.inj stepped
    exact .saves new (inv.rows.quotes.within _ fresh).1 (offer_of_isNewQuote isNew)
      (RowStore.rows_commit_write (inv.idle i new).quotes) rfl rfl
  | post i id posting =>
    simp only [Desk.step] at stepped
    split at stepped
    · cases stepped
    next amount valid =>
      simp only [Option.ite_none_right_eq_some] at stepped
      obtain ⟨⟨new, fresh, -, -⟩, stepped⟩ := stepped
      obtain rfl := Option.some.inj stepped
      exact .posts new (inv.rows.postings.within _ fresh).1 rfl
        (RowStore.rows_commit_write (inv.idle i new).postings) rfl
  | convert i input =>
    simp only [Desk.step, Option.ite_none_right_eq_some] at stepped
    obtain ⟨-, stepped⟩ := stepped
    obtain rfl := Option.some.inj stepped
    exact .stays stays_goto
  | advance i =>
    obtain ⟨call, here, advances⟩ := Option.bind_eq_some_iff.mp stepped
    rcases (advance_cases advances).2.2 with stays | ⟨ids, at_, checks⟩ | ⟨result, at_, after⟩
    · exact .stays stays
    · exact .checks here at_ checks
    · exact .converts here at_ after
  | insert i id =>
    obtain ⟨call, here, inserts⟩ := Option.bind_eq_some_iff.mp stepped
    exact .stays (insert_stays inserts)
  | also i posting =>
    obtain ⟨call, here, goes⟩ := Option.bind_eq_some_iff.mp stepped
    split at goes
    · obtain rfl := Option.some.inj goes
      exact .stays stays_goto
    · cases goes
  | refuse i error =>
    obtain ⟨call, here, throws⟩ := Option.bind_eq_some_iff.mp stepped
    split_ifs at throws
    obtain rfl := Option.some.inj throws
    exact .stays stays_throw
  | crash i =>
    obtain ⟨call, here, crashes⟩ := Option.bind_eq_some_iff.mp stepped
    split_ifs at crashes
    obtain rfl := Option.some.inj crashes
    exact .stays ⟨rfl, rfl, rfl⟩

/-- Which calls a step moves. -/
theorem calls_step {a : Action ι} (stepped : Desk.step accounts a d = some d') :
    d'.calls = d.calls ∨ ∃ i after, d'.calls = Function.update d.calls i (some after) ∧
      ∀ call, d.calls i = some call → call.pc.isOver = false := by
  have moved : ∀ {i : ι} {call after : Call}, d.calls i = some call → call.pc.isOver = false →
      d'.calls = Function.update d.calls i (some after) →
      d'.calls = d.calls ∨ ∃ i after, d'.calls = Function.update d.calls i (some after) ∧
        ∀ call, d.calls i = some call → call.pc.isOver = false := by
    intro i call after here open_ calls
    refine .inr ⟨i, after, calls, fun call' there => ?_⟩
    obtain rfl := Option.some.inj (here.symm.trans there)
    exact open_
  cases a with
  | tick now =>
    simp only [Desk.step, Option.ite_none_right_eq_some] at stepped
    obtain ⟨-, stepped⟩ := stepped
    obtain rfl := Option.some.inj stepped
    exact .inl rfl
  | quote i quote =>
    simp only [Desk.step, Option.ite_none_right_eq_some] at stepped
    obtain ⟨-, stepped⟩ := stepped
    obtain rfl := Option.some.inj stepped
    exact .inl rfl
  | post i id posting =>
    simp only [Desk.step] at stepped
    split at stepped
    · cases stepped
    · simp only [Option.ite_none_right_eq_some] at stepped
      obtain ⟨-, stepped⟩ := stepped
      obtain rfl := Option.some.inj stepped
      exact .inl rfl
  | convert i input =>
    simp only [Desk.step, Option.ite_none_right_eq_some] at stepped
    obtain ⟨new, stepped⟩ := stepped
    obtain rfl := Option.some.inj stepped
    refine .inr ⟨i, _, rfl, fun call there => ?_⟩
    rw [new] at there
    cases there
  | advance i =>
    obtain ⟨call, here, advances⟩ := Option.bind_eq_some_iff.mp stepped
    obtain ⟨open_, ⟨after, calls⟩, -⟩ := advance_cases advances
    exact moved here open_ calls
  | insert i id =>
    obtain ⟨call, here, inserts⟩ := Option.bind_eq_some_iff.mp stepped
    unfold Desk.insert at inserts
    split at inserts
    next at_ =>
      have open_ : call.pc.isOver = false := by
        rw [at_]
        rfl
      split_ifs at inserts
      · obtain rfl := Option.some.inj inserts
        exact moved here open_ rfl
      · obtain rfl := Option.some.inj inserts
        exact moved here open_ rfl
    next => cases inserts
  | also i posting =>
    obtain ⟨call, here, goes⟩ := Option.bind_eq_some_iff.mp stepped
    split at goes
    next at_ =>
      obtain rfl := Option.some.inj goes
      apply moved here _ rfl
      rw [at_]
      rfl
    next => cases goes
  | refuse i error =>
    obtain ⟨call, here, throws⟩ := Option.bind_eq_some_iff.mp stepped
    split_ifs at throws with ended
    obtain rfl := Option.some.inj throws
    exact moved here (Bool.eq_false_iff.mpr ended) rfl
  | crash i =>
    obtain ⟨call, here, crashes⟩ := Option.bind_eq_some_iff.mp stepped
    split_ifs at crashes with ended
    obtain rfl := Option.some.inj crashes
    exact moved here (Bool.eq_false_iff.mpr ended) rfl

end Desk

end Finstack.Fx
