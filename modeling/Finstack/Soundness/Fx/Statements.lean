import Finstack.Soundness.Fx.Calls

/-! # What the statements of a conversion keep

A lock, a write, a commit and a rollback of one transaction: what is kept of the rows, and of what
the other calls know.
-/

namespace Finstack.Fx

open Foundation

variable {ι : Type} [DecidableEq ι] {accounts : PlatformAccounts} {d d' d'' : Desk ι} {i j : ι}
  {call : Call} {pc : Pc} {quote : FxQuote} {q id : Uuid} {ids : List Uuid}
  {quotes : RowStore Uuid FxQuote ι} {postings : RowStore Uuid Posting ι}

/-! ## Quotes -/

namespace QuoteRows

theorem start : QuoteRows (.start fun _ => none : RowStore Uuid FxQuote ι) [] where
  conversions _ := .start
  within _ _ := ⟨rfl, rfl⟩
  offers := by simp [RowStore.Shows, RowStore.start]
  unused := by simp [RowStore.Shows, RowStore.start]

theorem lock (rows : QuoteRows quotes ids) (free : quotes.Free i q) (known : q ∈ ids) :
    QuoteRows (quotes.lock i q) ids where
  conversions reference := (rows.conversions reference).lock free
  within := rows.within.lock known
  offers l a b first second :=
    rows.offers l a b (RowStore.shows_lock free first) (RowStore.shows_lock free second)
  unused l a shown := rows.unused l a (RowStore.shows_lock free shown)

theorem commit (rows : QuoteRows quotes ids) : QuoteRows (quotes.commit i) ids where
  conversions reference := (rows.conversions reference).commit
  within := rows.within.commit
  offers l a b first second :=
    rows.offers l a b (RowStore.shows_commit first) (RowStore.shows_commit second)
  unused l a shown := rows.unused l a (RowStore.shows_commit shown)

theorem rollback (rows : QuoteRows quotes ids) : QuoteRows (quotes.rollback i) ids where
  conversions reference := (rows.conversions reference).rollback
  within := rows.within.rollback
  offers l a b first second :=
    rows.offers l a b (RowStore.shows_rollback first) (RowStore.shows_rollback second)
  unused l a shown := rows.unused l a (RowStore.shows_rollback shown)

/-- A quote is new, or offers what its row has offered before. -/
theorem write (rows : QuoteRows quotes ids) (free : quotes.Free i q) (known : q ∈ ids)
    (clear : ∀ reference, quote.conversionReference = some reference →
      quotes.Clear (isConversion reference) i q)
    (same : ∀ a, quotes.Shows q a → offer a = offer quote)
    (unused : quote.consumedAt = none → offer quote = quote) :
    QuoteRows (quotes.write i q (some quote)) ids where
  conversions reference := by
    by_cases converts : quote.conversionReference = some reference
    · exact (rows.conversions reference).write free (clear reference converts)
    · apply (rows.conversions reference).write_other free
      simpa [isConversion] using converts
  within := rows.within.write known
  offers l a b first second := by
    rcases RowStore.shows_write free first with old | ⟨rfl, new⟩ <;>
      rcases RowStore.shows_write free second with old' | ⟨there, new'⟩
    · exact rows.offers l a b old old'
    · cases new'
      cases there
      exact same a old
    · cases new
      exact (same b old').symm
    · cases new
      cases new'
      rfl
  unused l a shown := by
    rcases RowStore.shows_write free shown with old | ⟨-, new⟩
    · exact rows.unused l a old
    · cases new
      exact unused

theorem cons (rows : QuoteRows quotes ids) : QuoteRows quotes (q :: ids) :=
  { rows with within := rows.within.cons }

/-- An unused quote is saved under a new id. -/
theorem insert (rows : QuoteRows quotes ids) (new : q ∉ ids)
    (unused : offer quote = quote) : QuoteRows (quotes.write i q (some quote)) (q :: ids) := by
  apply rows.cons.write (.inl (rows.within q new).2) List.mem_cons_self
  · intro reference converts
    rw [← unused] at converts
    cases converts
  · intro a shown
    exact (new (rows.within.of_shows shown)).elim
  · exact fun _ => unused

end QuoteRows

/-! ## Postings -/

namespace PostingRows

theorem start : PostingRows (.start fun _ => none : RowStore Uuid Posting ι) [] where
  references _ := .start
  within _ _ := ⟨rfl, rfl⟩
  added := by simp [RowStore.start]
  named := by simp [RowStore.Shows, RowStore.start]
  balanced := by simp [RowStore.Shows, RowStore.start]

theorem commit (rows : PostingRows postings ids) : PostingRows (postings.commit i) ids where
  references reference := (rows.references reference).commit
  within := rows.within.commit
  added j l held := by
    obtain ⟨held, other⟩ := RowStore.holder_commit.mp held
    rw [RowStore.rows_commit, RowStore.view_of_not_held]
    · exact rows.added j l held
    · rw [held]
      exact fun mine => other (Option.some.inj mine)
  named l posting shown := rows.named l posting (RowStore.shows_commit shown)
  balanced l posting shown := rows.balanced l posting (RowStore.shows_commit shown)

theorem rollback (rows : PostingRows postings ids) : PostingRows (postings.rollback i) ids where
  references reference := (rows.references reference).rollback
  within := rows.within.rollback
  added j l held := rows.added j l (RowStore.holder_rollback.mp held).1
  named l posting shown := rows.named l posting (RowStore.shows_rollback shown)
  balanced l posting shown := rows.balanced l posting (RowStore.shows_rollback shown)

/-- A valid posting is inserted under a new id. -/
theorem insert {input : PostingInput} {amount : Int} (rows : PostingRows postings ids)
    (new : id ∉ ids) (valid : validatePosting input = .ok amount)
    (clear : postings.Clear (hasReference input.reference) i id) :
    PostingRows (postings.write i id (some (newPosting id input amount))) (id :: ids) where
  references reference := by
    have free : postings.Free i id := .inl (rows.within id new).2
    by_cases same : input.reference = reference
    · subst same
      exact (rows.references input.reference).write free clear
    · apply (rows.references reference).write_other free
      intro named
      exact same (of_decide_eq_true named)
  within := rows.within.cons.write List.mem_cons_self
  added j l held := by
    rw [RowStore.rows_write]
    by_cases here : l = id
    · rw [here]
      exact (rows.within id new).1
    · rw [RowStore.holder_write_ne here] at held
      exact rows.added j l held
  named l posting shown := by
    rcases RowStore.shows_write (.inl (rows.within id new).2) shown with old | ⟨rfl, there⟩
    · exact rows.named l posting old
    · cases there
      rfl
  balanced l posting shown := by
    rcases RowStore.shows_write (.inl (rows.within id new).2) shown with old | ⟨rfl, there⟩
    · exact rows.balanced l posting old
    · cases there
      rw [newPosting, LedgerService.map_postingEntry_newEntries]
      exact (validatePosting_ok_iff.mp valid).debits

/-- A committed posting is what everyone sees. -/
theorem view_of_rows (rows : PostingRows postings ids) {posting : Posting}
    (there : postings.rows id = some posting) : postings.view i id = some posting := by
  rw [RowStore.view_of_not_held]
  · exact there
  · intro mine
    rw [rows.added i id mine] at there
    cases there

end PostingRows

/-! ## A step of one transaction -/

namespace Desk

/-- A step of `i` that keeps the rows and leaves to the others what they know. -/
structure Moves (accounts : PlatformAccounts) (d d' : Desk ι) (i : ι) : Prop where
  rows : d'.Rows accounts
  frame : ∀ j, j ≠ i → d.Frame d' j
  calls : ∀ j, j ≠ i → d'.calls j = d.calls j

theorem Frame.trans (first : d.Frame d' j) (second : d'.Frame d'' j) : d.Frame d'' j where
  quotes := first.quotes.trans second.quotes
  postings := first.postings.trans second.postings
  offered q quote there := by
    obtain ⟨quote', there', same⟩ := first.offered q quote there
    obtain ⟨quote'', there'', same'⟩ := second.offered q quote' there'
    exact ⟨quote'', there'', same'.trans same⟩
  used q quote there consumed := second.used q quote (first.used q quote there consumed) consumed
  posted id posting there := second.posted id posting (first.posted id posting there)
  checkedAt := second.checkedAt.trans first.checkedAt

theorem Moves.trans (first : Moves accounts d d' i) (second : Moves accounts d' d'' i) :
    Moves accounts d d'' i where
  rows := second.rows
  frame j other := (first.frame j other).trans (second.frame j other)
  calls j other := (second.calls j other).trans (first.calls j other)

/-- Nothing is committed. -/
theorem Moves.quiet (rows : d.Rows accounts) (quoteRows : QuoteRows d'.quotes d'.quoteIds)
    (postingRows : PostingRows d'.postings d'.postingIds)
    (sameQuotes : d'.quotes.rows = d.quotes.rows)
    (samePostings : d'.postings.rows = d.postings.rows)
    (keepsQuotes : ∀ j, j ≠ i → d.quotes.Keeps d'.quotes j)
    (keepsPostings : ∀ j, j ≠ i → d.postings.Keeps d'.postings j)
    (others : ∀ j, j ≠ i → d'.calls j = d.calls j ∧ d'.checkedAt j = d.checkedAt j) :
    Moves accounts d d' i where
  rows := by
    refine ⟨quoteRows, postingRows, ?_⟩
    rw [sameQuotes, samePostings]
    exact rows.paid
  frame j other := by
    refine ⟨keepsQuotes j other, keepsPostings j other, ?_, ?_, ?_, (others j other).2⟩
    · rw [sameQuotes]
      exact fun q quote there => ⟨quote, there, rfl⟩
    · rw [sameQuotes]
      exact fun q quote there _ => there
    · rw [samePostings]
      exact fun id posting there => there
  calls j other := (others j other).1

/-- A transaction may commit its quotes: the used ones are paid for, and none of them was used. -/
structure MayCommit (accounts : PlatformAccounts) (d : Desk ι) (i : ι) : Prop where
  paid : ∀ q quote, d.quotes.holder q = some i → d.quotes.view i q = some quote →
    quote.consumedAt.isSome → ∃ input sourceLeg targetLeg,
      Paid accounts (d.postings.view i) quote input sourceLeg targetLeg
  kept : ∀ q quote, d.quotes.holder q = some i → d.quotes.rows q = some quote →
    ∃ quote', d.quotes.view i q = some quote' ∧ offer quote' = offer quote ∧
      (quote.consumedAt.isSome → quote' = quote)

theorem Moves.commit (rows : d.Rows accounts) (may : d.MayCommit accounts i) :
    Moves accounts d (d.commit i) i := by
  have posted : ∀ id posting, d.postings.rows id = some posting →
      d.postings.view i id = some posting := fun id posting => rows.postings.view_of_rows
  constructor
  · refine ⟨rows.quotes.commit, rows.postings.commit, fun q quote there consumed => ?_⟩
    by_cases mine : d.quotes.holder q = some i
    · exact may.paid q quote mine there consumed
    · have there : d.quotes.view i q = some quote := there
      rw [RowStore.view_of_not_held mine] at there
      obtain ⟨input, sourceLeg, targetLeg, paid⟩ := rows.paid q quote there consumed
      exact ⟨input, sourceLeg, targetLeg, paid.mono posted⟩
  · intro j other
    refine ⟨RowStore.keeps_commit other, RowStore.keeps_commit other, ?_, ?_, posted, rfl⟩
    · intro q quote there
      by_cases mine : d.quotes.holder q = some i
      · obtain ⟨quote', seen, same, -⟩ := may.kept q quote mine there
        exact ⟨quote', seen, same⟩
      · exact ⟨quote, (RowStore.view_of_not_held mine).trans there, rfl⟩
    · intro q quote there consumed
      by_cases mine : d.quotes.holder q = some i
      · obtain ⟨quote', seen, -, same⟩ := may.kept q quote mine there
        exact seen.trans (congrArg some (same consumed))
      · exact (RowStore.view_of_not_held mine).trans there
  · exact fun j _ => rfl

theorem others_goto (d : Desk ι) (call : Call) (pc : Pc) (j : ι) (other : j ≠ i) :
    (d.goto i call pc).calls j = d.calls j ∧ (d.goto i call pc).checkedAt j = d.checkedAt j :=
  ⟨Function.update_of_ne other .., rfl⟩

theorem Moves.goto (rows : d.Rows accounts) (call : Call) (pc : Pc) :
    Moves accounts d (d.goto i call pc) i :=
  .quiet rows rows.quotes rows.postings rfl rfl (fun j _ => .refl _ j) (fun j _ => .refl _ j)
    (d.others_goto call pc)

theorem Moves.rollback (rows : d.Rows accounts) : Moves accounts d (d.rollback i) i :=
  .quiet rows rows.quotes.rollback rows.postings.rollback rfl rfl
    (fun _ other => RowStore.keeps_rollback other) (fun _ other => RowStore.keeps_rollback other)
    fun _ _ => ⟨rfl, rfl⟩

theorem idle_commit : (d.commit i).Idle i where
  quotes _ mine := (RowStore.holder_commit.mp mine).2 rfl
  postings _ mine := (RowStore.holder_commit.mp mine).2 rfl

theorem idle_rollback : (d.rollback i).Idle i where
  quotes _ mine := (RowStore.holder_rollback.mp mine).2 rfl
  postings _ mine := (RowStore.holder_rollback.mp mine).2 rfl

/-- A step of `i`, with what its call knows after it. -/
theorem Inv.put (inv : d.Inv accounts) (moves : Moves accounts d d' i)
    (idle : d'.calls i = none → d'.Idle i)
    (holds : ∀ call, d'.calls i = some call → d'.Holds accounts i call.input call.pc) :
    d'.Inv accounts where
  rows := moves.rows
  idle j new := by
    by_cases here : j = i
    · subst here
      exact idle new
    · rw [moves.calls j here] at new
      exact (moves.frame j here).idle (inv.idle j new)
  calls j call there := by
    by_cases here : j = i
    · subst here
      exact holds call there
    · rw [moves.calls j here] at there
      exact (inv.calls j call there).frame (moves.frame j here)

/-- A step of the call `i`. -/
theorem Inv.put_call (inv : d.Inv accounts) (moves : Moves accounts d d' i)
    (calls : d'.calls i = some call) (holds : d'.Holds accounts i call.input call.pc) :
    d'.Inv accounts := by
  apply inv.put moves
  · intro new
    rw [calls] at new
    cases new
  · intro call' there
    obtain rfl := Option.some.inj (calls.symm.trans there)
    exact holds

theorem calls_goto_self : (d.goto i call pc).calls i = some { call with pc } :=
  Function.update_self ..

/-- Only the call's place changes. -/
theorem Inv.goto (inv : d.Inv accounts) (holds : d.Holds accounts i call.input pc) :
    (d.goto i call pc).Inv accounts :=
  inv.put_call (.goto inv.rows call pc) calls_goto_self (holds.frame (.goto d call pc))

theorem Inv.throw (inv : d.Inv accounts) (call : Call) (error : Err) :
    (d.throw i call error).Inv accounts :=
  inv.put_call ((Moves.rollback inv.rows).trans (.goto (Moves.rollback inv.rows).rows ..))
    calls_goto_self ((Frame.goto _ call _).idle idle_rollback)

end Desk

end Finstack.Fx
