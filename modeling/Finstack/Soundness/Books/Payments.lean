import Finstack.Soundness.Books.Commits

/-! # Payments keep the books

What the commits of a settlement, with or without a conversion, and of the end of its hold leave.
-/

namespace Finstack

open Foundation Services LedgerService

variable {c m b : Db}

/-! ## The end of a settlement hold -/

/-- A settlement hold ends: what is left in it is available. -/
inductive HoldReleased (c : Db) : Db → Prop
  | intro {payment : Payment} {wallet : Wallet} {time : Nat} {event : OutboxEvent} {m₁ m₂ : Db}
      (found : c.payments.find? payment.id = some payment) (holding : payment.pendingAmount ≠ 0)
      (member : wallet ∈ c.wallets) (walletId : wallet.id = payment.walletId) (past : time ≤ c.clock)
      (released : Shifted wallet .pending .available payment.pendingAmount
        (postingReference .settlement (uuidText payment.id)) c m₁)
      (ended : PaymentChanged payment.id (fun row => { row with
        pendingAmount := 0
        fundsAvailableAt := some time }) m₁ m₂) : HoldReleased c (m₂.addEvent event).cleared

theorem HoldReleased.books (books : c.Books) (released : HoldReleased c b) : c.Continues b ∧ b.Books := by
  obtain @⟨payment, wallet, time, event, m₁, m₂, found, holding, member, walletId, past, released,
    ended⟩ := released
  have listed := (Table.find?_some found).1
  obtain ⟨ledger, rfl, moves⟩ := released.moves member
  obtain ⟨payments, rfl, held, now⟩ : ∃ payments,
      m₂ = (c.onLedger fun _ => ledger).onPayments (fun _ => payments) ∧
      HoldMoves payment (-payment.pendingAmount) c.payments payments ∧
      payments.find? payment.id =
        some { payment with pendingAmount := 0, fundsAvailableAt := some time } := by
    have here : (c.onLedger fun _ => ledger).payments.find? payment.id = some payment := found
    have keeps : ∀ row : Payment,
        key { row with pendingAmount := 0, fundsAvailableAt := some time } = key row := fun _ => rfl
    obtain ⟨rfl, held⟩ := HoldMoves.changed here ended keeps fun _ => ⟨rfl, rfl, rfl, rfl, rfl⟩
    simp only [zero_sub] at held
    refine ⟨_, rfl, held, ?_⟩
    rw [Table.find?_modify_self keeps, here, Option.map_some]
  have linked := held.linked (c.onLedger fun _ => ledger) rfl (books.linked.onLedger _)
  have progress := (((Db.Progress.moved moves).trans (.held held.kept)).trans (.told event _)).trans
    (.cleared _)
  refine ⟨{ progress with
      successes := Db.successes_of fun refund there now => ⟨there, now⟩
      released := fun id used => ?_ },
    books.commit progress (linked.congr rfl rfl rfl rfl rfl) moves rfl ⟨rfl, rfl⟩ (fun id => ?_)
    (fun id => ?_) ?_ ?_ ?_ ?_
    fun quote there reference _ => .inl there⟩
  · refine (Db.settled_of_moves moves rfl used).imp_right fun mine => ?_
    have own := uuidText_injective (postingReference_inj (colonless_uuidText _) (colonless_uuidText _)
      (List.mem_singleton.mp mine)).2
    subst own
    intro same
    have unchanged := congrArg (Option.map (·.pendingAmount)) ((found.symm.trans same).trans now)
    exact holding (by simpa using unchanged)
  · refine (held.pending id).trans ?_
    rw [walletId]
    simp
    rfl
  · simp
    rfl
  · intro used mine
    obtain rfl := List.mem_singleton.mp mine
    exact ⟨.settlement, uuidText payment.id, colonless_uuidText _, rfl, _, (Table.find?_some now).1, rfl,
      rfl, time, rfl, past⟩
  · refine held.settled (.inl fun used => ?_)
    obtain ⟨other, here, own, nothing, -⟩ := books.journal.done (colonless_uuidText _) used
    obtain rfl := Table.eq_of_key here listed (uuidText_injective own)
    exact holding nothing
  · exact held.reversed books.reversed progress rfl fun _ => rfl
  · refine held.uncredited books.uncredited listed progress rfl (.inl (progress.credited ?_))
    by_contra before
    exact holding (books.uncredited payment listed before).1

/-! ## The credit -/

/-- What is credited to a wallet for the payment of this name: deposited, or converted from the
currency it was paid in. -/
inductive Credited (c : Db) (wallet : Wallet) (into : WalletBalance) (amount : Int) (name : String) :
    Db → Db → Prop
  | deposited {m b : Db} (paid : Paid c wallet into amount (postingReference .payment name) m b) :
      Credited c wallet into amount name m b
  | converted {source target : PostingInput} {position id id' quoteId : Uuid} {gross total total' : Int}
      {rest : List PostingEntry} {change : FxQuote → FxQuote} {m m₁ m₂ : Db}
      (sourceReference : source.reference = postingReference .paymentSource name)
      (sourceEntries : ∀ entry ∈ source.entries, c.Coded entry.accountId)
      (posts : Posts id source total m m₁)
      (targetReference : target.reference = postingReference .paymentTarget name)
      (targetEntries : target.entries = ⟨position, .debit, gross⟩ ::
        ⟨balanceAccount wallet into, .credit, amount⟩ :: rest)
      (coded : c.Coded position) (others : ∀ entry ∈ rest, c.Coded entry.accountId)
      (posts' : Posts id' target total' m₁ m₂)
      (keeps : ∀ quote, key (change quote) = key quote)
      (consumes : ∀ quote, (change quote).conversionReference = some (postingReference .payment name)) :
      Credited c wallet into amount name m (m₂.onFxQuotes (·.modify quoteId change))

theorem LedgerService.Posts.positive {id : Uuid} {input : PostingInput} {total : Int} (posts : Posts id input total m b)
    {entry : PostingEntry} (member : entry ∈ input.entries) : 0 < entry.amount :=
  posts.postable.valid.positive entry member

theorem Credited.moves {wallets : Table Wallet} {wallet : Wallet} {into : WalletBalance} {amount : Int}
    {name : String} (credited : Credited c wallet into amount name m b) (progress : c.Progress m)
    (member : wallet ∈ wallets) : ∃ ledger quotes references,
      b = (m.onLedger fun _ => ledger).onFxQuotes (fun _ => quotes) ∧
      LedgerMoves wallets wallet.id (if into = .pending then amount else 0)
        (if into = .reserved then amount else 0) references m.ledger ledger ∧
      0 < amount ∧
      (∀ reference ∈ references, reference = postingReference .payment name ∨
        reference = postingReference .paymentSource name ∨
        reference = postingReference .paymentTarget name) ∧
      ∀ quote ∈ quotes, ∀ reference, quote.conversionReference = some reference →
        quote ∈ m.fxQuotes ∨ reference = postingReference .payment name := by
  cases credited with
  | deposited paid =>
    obtain ⟨ledger, rfl, moves⟩ := paid.moves progress member
    obtain ⟨input, currency, description, other, id, total, is, -, posts⟩ := paid
    refine ⟨ledger, m.fxQuotes, _, rfl, moves, ?_, fun reference mine => ?_,
      fun quote there reference _ => .inl there⟩
    · have mine : ⟨balanceAccount wallet into, .credit, amount⟩ ∈ input.entries := by
        rw [is]
        exact List.mem_pair.mpr (.inr rfl)
      exact posts.positive mine
    · exact .inl (List.mem_singleton.mp mine)
  | @converted source target position id id' quoteId gross total total' rest change _ m₁ m₂
      sourceReference sourceEntries posts targetReference targetEntries coded others posts' keeps
      consumes =>
    have first : LedgerMoves wallets wallet.id 0 0 [source.reference] m.ledger m₁.ledger := by
      rw [posts.result]
      exact .posted posts.postable fun known => Gains.elsewhere known fun entry member =>
        .inr ((sourceEntries entry member).progress progress)
    have entries : target.entries.Perm (⟨balanceAccount wallet into, .credit, amount⟩ ::
        ⟨position, .debit, gross⟩ :: rest) := by
      rw [targetEntries]
      exact .swap _ _ _
    have second : LedgerMoves wallets wallet.id (if into = .pending then amount else 0)
        (if into = .reserved then amount else 0) [target.reference] m₁.ledger m₂.ledger := by
      rw [posts'.result]
      refine .posted posts'.postable fun known => Gains.exchanged known member into entries rfl ?_
      intro entry listed
      have coded' : c.Coded entry.accountId := by
        rcases List.mem_cons.mp listed with rfl | later
        · exact coded
        · exact others entry later
      exact coded'.progress (progress.trans (.posted posts))
    have both := first.trans second
    rw [zero_add, zero_add, sourceReference, targetReference] at both
    have quotes : m₂.fxQuotes = m.fxQuotes := by
      rw [posts'.result, posts.result]
      rfl
    refine ⟨m₂.ledger, m.fxQuotes.modify quoteId change, _, ?_, both, ?_, fun reference mine => ?_, ?_⟩
    · rw [← quotes, posts'.result, posts.result]
      rfl
    · exact posts'.positive (entries.mem_iff.mpr List.mem_cons_self)
    · rcases List.mem_pair.mp mine with rfl | rfl
      · exact .inr (.inl rfl)
      · exact .inr (.inr rfl)
    · refine Table.forall_mem_modify keeps (fun quote there reference _ => .inl there) ?_
      intro quote there _ reference converted
      exact .inr (Option.some.inj (converted.symm.trans (consumes quote)))

/-- A payment is credited: its transaction succeeds, its fee is collected, and what is left of the credit
is held until the funds are available, or is available now. -/
inductive PaymentCredited (c : Db) : Db → Prop
  | intro {payment : Payment} {wallet : Wallet} {row : Transaction} {into : WalletBalance}
      {amount fee : Int} {time : Nat} {patch : Requests.TransitionPatch} {event : OutboxEvent}
      {m₁ m₂ m₃ m₄ m₅ : Db}
      (found : c.payments.find? payment.id = some payment)
      (bought : c.transactions.find? payment.transactionId = some row)
      (unsettled : row.status = .pending ∨ row.status = .processing)
      (member : wallet ∈ c.wallets) (walletId : wallet.id = payment.walletId)
      (requoted : (∃ quoteId, PaymentChanged payment.id (fun payment =>
        { payment with fxQuoteId := quoteId }) c m₁) ∨ m₁ = c)
      (credited : Credited c wallet into amount row.reference m₁ m₂) (kept : into ≠ .reserved)
      (moved : Transitioned payment.transactionId .successful patch m₂ m₃)
      (due : fee = if row.feeAmount < amount then row.feeAmount else amount)
      (charged : 0 < fee ∧ Drawn c wallet into fee (postingReference .paymentFee row.reference) m₃ m₄ ∨
        ¬ 0 < fee ∧ m₄ = m₃)
      (held : PaymentChanged payment.id (fun payment => { payment with
        pendingAmount := if into = .pending then amount - fee else 0
        fundsAvailableAt := some time }) m₄ m₅) : PaymentCredited c (m₅.addEvent event).cleared

theorem PaymentCredited.books (books : c.Books) (credited : PaymentCredited c b) :
    c.Continues b ∧ b.Books := by
  obtain @⟨payment, wallet, row, into, amount, fee, time, patch, event, m₁, m₂, m₃, m₄, m₅, found, bought,
    unsettled, member, walletId, requoted, credited, kept, moved, due, charged, held⟩ := credited
  have listed := (Table.find?_some found).1
  have type : row.type = .payment := by
    obtain ⟨its, here, type⟩ := books.linked.payments.stored payment listed
    rwa [Option.some.inj (bought.symm.trans here)]
  have plain : Colonless row.reference :=
    books.linked.transactionNames.plain row (Table.find?_some bought).1
  have feeAmount : 0 ≤ row.feeAmount := by
    have nonneg := (books.linked.credited payment listed).2.2.2
    rwa [Db.feeOf, bought, Option.elim_some] at nonneg
  have before : c.statusOf payment.transactionId = some row.status := Db.statusOf_of_find? bought
  have uncredited : ¬ c.Has [.successful, .reversed] payment.transactionId := by
    rw [Db.Has, before]
    rcases unsettled with status | status <;> simp [status]
  obtain ⟨nothing, never⟩ := books.uncredited payment listed uncredited
  -- the payment may have a new quote
  obtain ⟨payments₁, payment', rfl, held₁, here₁, own, itsWallet, same⟩ : ∃ payments payment',
      m₁ = c.onPayments (fun _ => payments) ∧ HoldMoves payment 0 c.payments payments ∧
      payments.find? payment.id = some payment' ∧ payment'.id = payment.id ∧
      payment'.walletId = payment.walletId ∧ payment'.pendingAmount = payment.pendingAmount := by
    rcases requoted with ⟨quoteId, changed⟩ | rfl
    · obtain ⟨rfl, moves⟩ := HoldMoves.changed found changed (fun _ => rfl)
        fun _ => ⟨rfl, rfl, rfl, rfl, rfl⟩
      simp only [sub_self] at moves
      refine ⟨_, { payment with fxQuoteId := quoteId }, rfl, moves, ?_, rfl, rfl, rfl⟩
      have keeps : ∀ row : Payment, key { row with fxQuoteId := quoteId } = key row := fun _ => rfl
      rw [Table.find?_modify_self keeps, found, Option.map_some]
    · exact ⟨m₁.payments, payment, rfl, .refl payment _, found, rfl, rfl, rfl⟩
  have progress₁ := Db.Progress.held (m := c) held₁.kept
  obtain ⟨ledger₂, quotes, references₂, result, moves₂, positive, ours₂, consumed⟩ :=
    credited.moves progress₁ member
  have linked₂ : m₂.Linked := by
    rw [result]
    exact (held₁.linked c rfl books.linked).congr rfl rfl rfl rfl rfl
  have sums₂ : c.SameSums m₂ := by
    rw [result]
    exact .congr rfl rfl rfl
  have progress₂ : c.Progress m₂ := by
    rw [result]
    exact { progress₁ with codes := moves₂.codes, postings := moves₂.postings }
  have bought₂ : m₂.transactions.find? payment.transactionId = some row := by
    rw [result]
    exact bought
  have linked₃ := linked₂.transitioned moved bought₂
    ⟨fun other => by simp [type] at other, fun other => by simp [type] at other⟩
  have sums₃ := sums₂.trans
    (.transitioned linked₂ moved bought₂ (by simp [type]) (by simp [type]))
  have progress₃ := progress₂.trans (.transitioned moved)
  have now : m₃.transactions.find? payment.transactionId = some (patch.apply .successful row) := by
    rw [Db.find?_transitioned moved, if_pos rfl, bought₂, Option.map_some]
  have refunds : ∀ refund ∈ c.refunds,
      m₃.statusOf refund.transactionId = c.statusOf refund.transactionId := by
    intro refund there
    rw [Db.statusOf_transitioned moved, if_neg]
    · rw [result]
      rfl
    · exact (books.linked.refunds.apart books.linked.payments (by decide) refund there payment
        listed).symm
  -- what the postings have moved
  replace moves₂ : LedgerMoves c.wallets wallet.id (if into = .pending then amount else 0) 0
      references₂ c.ledger ledger₂ := by
    rw [if_neg kept] at moves₂
    exact moves₂
  have ledger₃ : m₃.ledger = ledger₂ := by
    rw [moved.2, result]
    rfl
  obtain ⟨ledger, references, rfl, moves, ours⟩ : ∃ ledger references,
      m₄ = m₃.onLedger (fun _ => ledger) ∧
      LedgerMoves c.wallets wallet.id (if into = .pending then amount - fee else 0) 0 references
        c.ledger ledger ∧
      ∀ reference ∈ references, ∃ purpose ∈ [Purpose.payment, .paymentSource, .paymentTarget,
        .paymentFee], reference = postingReference purpose row.reference := by
    have named : ∀ reference ∈ references₂, ∃ purpose ∈ [Purpose.payment, .paymentSource, .paymentTarget,
        .paymentFee], reference = postingReference purpose row.reference := by
      intro reference mine
      rcases ours₂ reference mine with rfl | rfl | rfl <;> exact ⟨_, by simp, rfl⟩
    rcases charged with ⟨-, drawn⟩ | ⟨none, rfl⟩
    · obtain ⟨ledger, rfl, more⟩ := drawn.moves progress₃ member
      rw [ledger₃] at more
      refine ⟨ledger, references₂ ++ [postingReference .paymentFee row.reference], rfl, ?_, ?_⟩
      · convert moves₂.trans more using 1
        · cases into <;> simp [sub_eq_add_neg]
        · simp [kept]
      · intro reference mine
        rcases List.mem_append.mp mine with old | new
        · exact named reference old
        · exact ⟨.paymentFee, by simp, List.mem_singleton.mp new⟩
    · have free : fee = 0 := by
        rw [due] at none ⊢
        split_ifs at none ⊢ <;> omega
      refine ⟨ledger₂, references₂, by rw [← ledger₃]; rfl, ?_, named⟩
      rwa [free, sub_zero]
  have found₄ : (m₃.onLedger fun _ => ledger).payments.find? payment'.id = some payment' := by
    rw [moved.2, result, own]
    exact here₁
  obtain ⟨payments, rfl, holds, linked⟩ : ∃ payments,
      m₅ = (m₃.onLedger fun _ => ledger).onPayments (fun _ => payments) ∧
      HoldMoves payment (if into = .pending then amount - fee else 0) c.payments payments ∧
      m₅.Linked := by
    rw [← own] at held
    obtain ⟨rfl, again⟩ := HoldMoves.changed found₄ held (fun _ => rfl)
      fun _ => ⟨rfl, rfl, rfl, rfl, rfl⟩
    have linked := again.linked (m₃.onLedger fun _ => ledger) rfl (linked₃.onLedger _)
    have payments₄ : (m₃.onLedger fun _ => ledger).payments = payments₁ := by
      rw [moved.2, result]
      rfl
    rw [payments₄] at again linked ⊢
    have both := held₁.trans again own itsWallet
    simp only [same, nothing, sub_zero, zero_add] at both
    exact ⟨_, rfl, both, linked⟩
  have credited₃ : m₃.Has [.successful, .reversed] payment.transactionId :=
    Db.has_iff.mpr ⟨.successful, by simp, Db.statusOf_of_find? now⟩
  have progress : c.Progress
      (((m₃.onLedger fun _ => ledger).onPayments fun _ => payments).addEvent event).cleared :=
    { progress₃ with codes := moves.codes, postings := moves.postings, payments := holds.kept }
  obtain rfl := moved.2
  subst result
  refine ⟨{ progress with
      successes := Db.successes_of fun refund there now => ⟨there, (refunds refund there).symm.trans now⟩
      released := fun id used => .inl ((Db.settled_of_moves moves rfl used).resolve_right ?_) },
    books.commit progress (linked.congr rfl rfl rfl rfl rfl) moves rfl ⟨rfl, rfl⟩ (fun id => ?_) (fun id => ?_)
      ?_ ?_ ?_ ?_ fun quote there reference converted => ?_⟩
  · intro mine
    obtain ⟨purpose, listed, same⟩ := ours _ mine
    obtain ⟨rfl, -⟩ := postingReference_inj (colonless_uuidText id) plain same
    simp at listed
  · refine (holds.pending id).trans ?_
    rw [walletId]
    rfl
  · rw [ite_self, add_zero]
    exact sums₃.held id
  · intro reference mine
    obtain ⟨purpose, listed, rfl⟩ := ours reference mine
    refine ⟨purpose, row.reference, plain, rfl, ?_⟩
    have done : ∃ stored ∈ (Table.modify c.transactions payment.transactionId
        (patch.apply .successful)), stored.reference = row.reference ∧ stored.type = .payment ∧
        (stored.status = .successful ∨ stored.status = .reversed) :=
      ⟨_, (Table.find?_some now).1, rfl, type, .inl rfl⟩
    rcases List.mem_cons.mp listed with rfl | listed
    · exact done
    rcases List.mem_cons.mp listed with rfl | listed
    · exact done
    rcases List.mem_pair.mp listed with rfl | rfl <;> exact done
  · refine holds.settled (.inl fun used => ?_)
    obtain ⟨other, here, name, -, time, ended, -⟩ := books.journal.done (colonless_uuidText _) used
    obtain rfl := Table.eq_of_key here listed (uuidText_injective name)
    rw [never] at ended
    cases ended
  · exact holds.reversed books.reversed progress rfl fun id => sums₃.totals _ id
  · exact holds.uncredited books.uncredited listed progress rfl (.inl credited₃)
  · refine (consumed quote there reference converted).imp_right fun mine => ?_
    exact ⟨row.reference, plain, mine, _, (Table.find?_some now).1, rfl, type, .inl rfl⟩

/-! ## The failure -/

/-- A payment fails, with or without an event. -/
inductive PaymentFailed (c : Db) : Db → Prop
  | intro {payment : Payment} {patch : Requests.TransitionPatch} {m₁ : Db} (outbox : List OutboxEvent)
      (listed : payment ∈ c.payments)
      (moved : Transitioned payment.transactionId .failed patch c m₁) :
      PaymentFailed c { m₁ with outbox }.cleared

theorem PaymentFailed.books (books : c.Books) (failed : PaymentFailed c b) : c.Continues b ∧ b.Books := by
  obtain @⟨payment, patch, m₁, outbox, listed, moved⟩ := failed
  obtain ⟨row, bought, type⟩ := books.linked.payments.stored payment listed
  have linked := books.linked.transitioned moved bought
    ⟨fun other => by simp [type] at other, fun other => by simp [type] at other⟩
  have sums := Db.SameSums.transitioned books.linked moved bought (by simp [type]) (by simp [type])
  have told : m₁.Progress { m₁ with outbox } := { Db.Progress.refl m₁ with }
  have progress := ((Db.Progress.transitioned moved).trans told).trans (.cleared _)
  have refunds : ∀ refund ∈ c.refunds,
      m₁.statusOf refund.transactionId = c.statusOf refund.transactionId := by
    intro refund there
    rw [Db.statusOf_transitioned moved, if_neg]
    exact (books.linked.refunds.apart books.linked.payments (by decide) refund there payment listed).symm
  have moves : LedgerMoves c.wallets payment.walletId 0 0 [] c.ledger c.ledger := .refl
  obtain rfl := moved.2
  refine ⟨{ progress with
      successes := Db.successes_of fun refund there now => ⟨there, (refunds refund there).symm.trans now⟩
      released := fun id used => .inl used },
    books.commit progress (linked.congr rfl rfl rfl rfl rfl) moves rfl ⟨rfl, rfl⟩ (fun id => ?_) (fun id => ?_)
      (fun _ mine => absurd mine List.not_mem_nil) (fun other there _ => Table.find?_of_mem there) ?_ ?_
      fun quote there reference _ => .inl there⟩
  · rw [ite_self, add_zero]
    rfl
  · rw [ite_self, add_zero]
    exact sums.held id
  · exact books.reversed.commit progress (fun row there => ⟨row, there, rfl, .refl row⟩)
      fun id => sums.totals _ id
  · exact books.uncredited.commit progress fun row here => ⟨row, here, .refl row, .inl rfl⟩

end Finstack
