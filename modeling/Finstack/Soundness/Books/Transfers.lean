import Finstack.Soundness.Books.Commits

/-! # Transfers and new rows keep the books

What the commit of a transfer leaves, and what is committed on the side: the platform's accounts and
quotes.
-/

namespace Finstack

open Foundation Services LedgerService

variable {c b : Db}

/-! ## Transfers -/

/-- A transfer between two wallets commits, with its fee. -/
inductive Transferred (c : Db) : Db → Prop
  | intro {source destination : Wallet} {row : Transaction} {input : PostingInput}
      {movement : MoneyMovement} {currency : String} {fee total : Int} {id : Uuid}
      {patch : Requests.TransitionPatch} {event : OutboxEvent} {m₁ m₂ m₃ m₄ : Db}
      (member : source ∈ c.wallets) (member' : destination ∈ c.wallets)
      (type : row.type = .transfer) (name : Colonless row.reference)
      (created : Created row c m₁)
      (reference : movement.reference = postingReference .transfer row.reference)
      (is : input = WalletsService.move currency movement (balanceAccount source .available)
        (balanceAccount destination .available)) (posts : Posts id input total m₁ m₂)
      (charged : Drawn c source .available fee (postingReference .transferFee row.reference) m₂ m₃ ∨
        m₃ = m₂)
      (moved : Transitioned row.id .successful patch m₃ m₄) : Transferred c (m₄.addEvent event).cleared

theorem Transferred.books (books : c.Books) (transferred : Transferred c b) :
    c.Continues b ∧ b.Books := by
  obtain @⟨source, destination, row, input, movement, currency, fee, total, id, patch, event, m₁, m₂, m₃,
    m₄, member, member', type, name, created, reference, is, posts, charged, moved⟩ := transferred
  have unused := Db.checkNewTransaction_ok created.1
  have linked₁ := books.linked.created name created
  have sums₁ := Db.SameSums.created books.linked created
  have progress₁ := Db.Progress.created created
  have created₁ : m₁.transactions.find? row.id = some row := by
    rw [created.2]
    exact Table.find?_insert_self unused.1
  have others : ∀ {R : Type} [Keyed R Uuid] {t : Table R} {transactionId : R → Uuid}
      {type : TransactionType}, Files c t transactionId type → ∀ r ∈ t,
      m₁.statusOf (transactionId r) = c.statusOf (transactionId r) ∧ transactionId r ≠ row.id := by
    intro R _ t transactionId type files r there
    obtain ⟨_, here, -⟩ := files.stored r there
    refine ⟨(Db.statusOf_created created here).1, fun same => ?_⟩
    rw [same, unused.1] at here
    cases here
  -- nobody's pending or reserved balance moves
  have result₁ : m₁ = c.onTransactions (·.insert row) := created.2
  have posted₂ : LedgerMoves c.wallets source.id 0 0 [input.reference] c.ledger m₂.ledger := by
    have moves : LedgerMoves c.wallets source.id 0 0 [input.reference] m₁.ledger m₂.ledger := by
      rw [posts.result]
      refine .posted posts.postable fun known => Gains.elsewhere known fun entry listed => .inl ?_
      rw [is] at listed
      rcases List.mem_pair.mp listed with rfl | rfl
      · exact ⟨source, member, rfl⟩
      · exact ⟨destination, member', rfl⟩
    rwa [result₁] at moves
  obtain ⟨ledger, references, rfl, moves, ours⟩ : ∃ ledger references,
      m₃ = m₁.onLedger (fun _ => ledger) ∧
      LedgerMoves c.wallets source.id 0 0 references c.ledger ledger ∧
      ∀ reference ∈ references, reference = postingReference .transfer row.reference ∨
        reference = postingReference .transferFee row.reference := by
    have first : input.reference = postingReference .transfer row.reference := by
      rw [is]
      exact reference
    rcases charged with drawn | rfl
    · obtain ⟨ledger, rfl, more⟩ := drawn.moves (progress₁.trans (.posted posts)) member
      refine ⟨ledger, _, by rw [posts.result]; rfl, by simpa using posted₂.trans more, ?_⟩
      simp [first]
    · exact ⟨m₃.ledger, _, by rw [posts.result]; rfl, posted₂, by simp [first]⟩
  have linked₃ : (m₁.onLedger fun _ => ledger).Linked := linked₁.onLedger _
  have linked := linked₃.transitioned moved created₁
    ⟨fun other => by simp [type] at other, fun other => by simp [type] at other⟩
  have sums₃ : c.SameSums (m₁.onLedger fun _ => ledger) := sums₁.trans (.congr rfl rfl rfl)
  have sums := sums₃.trans
    (.transitioned linked₃ moved created₁ (by simp [type]) (by simp [type]))
  have statuses : ∀ refund ∈ c.refunds,
      m₄.statusOf refund.transactionId = c.statusOf refund.transactionId := by
    intro refund there
    obtain ⟨same, other⟩ := others books.linked.refunds refund there
    rw [Db.statusOf_transitioned moved, if_neg other.symm]
    exact same
  have now : m₄.transactions.find? row.id = some (patch.apply .successful row) := by
    rw [Db.find?_transitioned moved, if_pos rfl]
    exact congrArg (Option.map _) created₁
  have progress₃ : c.Progress (m₁.onLedger fun _ => ledger) :=
    { progress₁ with codes := moves.codes, postings := moves.postings }
  have progress := ((progress₃.trans (.transitioned moved)).trans (.told event _)).trans (.cleared _)
  obtain rfl := moved.2
  subst result₁
  refine ⟨{ progress with
      successes := Db.successes_of fun refund there now => ⟨there, (statuses refund there).symm.trans now⟩
      released := fun id used => .inl ((Db.settled_of_moves moves rfl used).resolve_right ?_) },
    books.commit progress (linked.congr rfl rfl rfl rfl rfl) moves rfl ⟨rfl, rfl⟩ (fun id => ?_) (fun id => ?_)
      (fun used mine => ?_) (fun other there _ => Table.find?_of_mem there) ?_ ?_
      fun quote there reference _ => .inl there⟩
  · intro mine
    rcases ours _ mine with same | same
    · cases (postingReference_inj (colonless_uuidText id) name same).1
    · cases (postingReference_inj (colonless_uuidText id) name same).1
  · rw [ite_self, add_zero]
    rfl
  · rw [ite_self, add_zero]
    exact sums.held id
  · rcases ours used mine with same | same
    · exact ⟨.transfer, row.reference, name, same, _, (Table.find?_some now).1, rfl, type⟩
    · exact ⟨.transferFee, row.reference, name, same, _, (Table.find?_some now).1, rfl, type⟩
  · exact books.reversed.commit progress (fun row there => ⟨row, there, rfl, .refl row⟩)
      fun id => sums.totals _ id
  · exact books.uncredited.commit progress fun row here => ⟨row, here, .refl row, .inl rfl⟩

/-! ## On the side -/

/-- Nothing is posted and no record changes. -/
theorem Db.Books.aside (books : c.Books) {ledger : Ledger} {quotes : Table FxQuote}
    (moves : LedgerMoves c.wallets 0 0 0 [] c.ledger ledger) (nothing : ledger.deferred = [])
    (unused : ∀ quote ∈ quotes, quote ∈ c.fxQuotes ∨ quote.conversionReference = none) :
    c.Continues ((c.onLedger fun _ => ledger).onFxQuotes fun _ => quotes) ∧
      ((c.onLedger fun _ => ledger).onFxQuotes fun _ => quotes).Books := by
  have progress : c.Progress ((c.onLedger fun _ => ledger).onFxQuotes fun _ => quotes) :=
    { Db.Progress.moved moves with }
  have result : ledger = ledger.clearDeferred := by
    rw [Ledger.clearDeferred, ← nothing]
  refine ⟨{ progress with
      successes := Db.successes_of fun refund there now => ⟨there, now⟩
      released := fun id used => .inl ((Db.settled_of_moves moves result used).resolve_right
        List.not_mem_nil) },
    books.commit progress (books.linked.congr rfl rfl rfl rfl rfl) moves result ⟨rfl, rfl⟩ (fun id => ?_)
      (fun id => ?_) (fun _ mine => absurd mine List.not_mem_nil)
      (fun other there _ => Table.find?_of_mem there) ?_ ?_ fun quote there reference converted => ?_⟩
  · rw [ite_self, add_zero]
    rfl
  · rw [ite_self, add_zero]
    rfl
  · exact books.reversed.commit progress (fun row there => ⟨row, there, rfl, .refl row⟩) fun _ => rfl
  · exact books.uncredited.commit progress fun row here => ⟨row, here, .refl row, .inl rfl⟩
  · refine .inl ((unused quote there).resolve_right fun none => ?_)
    rw [none] at converted
    cases converted

/-- The platform opens an account. -/
theorem Db.Books.accountOpened (books : c.Books) {account : LedgerAccount} :
    c.Continues (c.onLedger (Ledger.insertAccount account)) ∧
      (c.onLedger (Ledger.insertAccount account)).Books := by
  have moves : LedgerMoves c.wallets 0 0 0 [] c.ledger (c.ledger.insertAccount account) :=
    { (LedgerMoves.refl : LedgerMoves c.wallets 0 0 0 [] c.ledger c.ledger) with
      codes := fun _ row found => ⟨row, Table.find?_insert_of_some found, rfl⟩
      recording := fun recording =>
        ⟨⟨recording.indexed.references, recording.indexed.reversals⟩, recording.entries⟩
      accounts := fun known => known.insert account
      gains := fun known => by
        have same : ∀ wallet ∈ c.wallets, ∀ balance,
            cachedBalance (c.ledger.accounts.insert account) (balanceAccount wallet balance) =
              cachedBalance c.ledger.accounts (balanceAccount wallet balance) := by
          intro wallet member balance
          obtain ⟨own, found, -⟩ := known.opened wallet member balance
          rw [cachedBalance, cachedBalance, Table.find?_insert_of_some found, found]
        constructor
        · intro wallet member
          rw [ite_self, add_zero]
          exact same wallet member .pending
        · intro wallet member
          rw [ite_self, add_zero]
          exact same wallet member .reserved }
  exact books.aside moves books.journal.settled fun quote there => .inl there

/-- A quote is stored. -/
theorem Db.Books.quoteStored (books : c.Books) {quote : FxQuote}
    (absent : c.fxQuotes.find? quote.id = none) (unused : quote.conversionReference = none) :
    c.Continues (c.onFxQuotes (·.insert quote)) ∧ (c.onFxQuotes (·.insert quote)).Books := by
  have still : LedgerMoves c.wallets 0 0 0 [] c.ledger c.ledger := .refl
  refine books.aside still books.journal.settled fun other there => ?_
  rcases (Table.mem_insert absent).mp there with old | rfl
  · exact .inl old
  · exact .inr unused

end Finstack
