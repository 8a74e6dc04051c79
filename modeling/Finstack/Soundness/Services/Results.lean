import Finstack.Soundness.Services.Recorded

/-! # What a call answers

The key of a request is looked up without the request: whatever the owner has under it is returned.
So a call answers with what it was asked for exactly when what it finds under its key was asked for
in the same words, and everything it makes itself was.
-/

namespace Finstack.Services

open Foundation Txn Prog

variable {history : Set Db} {held : List RowLock} {pend : Db → Db} {c : Db}

/-- With nobody else about, a read is of the database as it is. -/
theorem returns_alone {α β : Type} {db : Db} {R : β → List RowLock → (Db → Db) → Db → Prop}
    {read : Db → α} {f : α → DbTxn β} (member : db ∈ history)
    (returns : Returns (Db.During history) R (Txn.queryCommitted read >>= f) [] id db) :
    Returns (Db.During history) R (f (read db)) [] id db :=
  returns_queryCommitted.mp (returns_of_bind returns) db ⟨⟨member, .refl db⟩, fun _ _ => rfl⟩

/-! ## Transfers -/

namespace TransfersService

/-- The user that the recipient's address leads to. -/
def recipientIn (db : Db) (input : TransferInput) : Option Uuid :=
  (db.users.find? fun user => user.email = normalizeEmail input.recipientEmail).map (·.id)

/-- The currency asked for, or else the sender's primary one. -/
def currencyIn (db : Db) (userId : Uuid) (input : TransferInput) : Option String :=
  input.currency.or ((db.findPrimaryWallet (.user userId)).map (·.currency))

/-- The transaction is a transfer of this user with what the input says, its recipient and currency
as they were at moments of the call. -/
structure Asked (history : Set Db) (userId : Uuid) (input : TransferInput) (idempotencyKey : String)
    (transaction : Transaction) : Prop where
  type : transaction.type = .transfer
  sender : transaction.owner = .user userId
  idempotencyKey : transaction.idempotencyKey = some idempotencyKey
  amount : transaction.amount = input.amount
  recipient : ∃ db ∈ history, ∃ id, recipientIn db input = some id ∧
    transaction.counterpartyUserId = some id
  currency : ∃ db ∈ history, currencyIn db userId input = some transaction.currency

theorem returns_senderWallet (seen : history.Nonempty) (userId : Uuid) (input : TransferInput) :
    Returns (Db.During history) (fun wallet _ _ _ => ∃ db ∈ history,
      currencyIn db userId input = some wallet.currency) (senderWallet userId input) held pend c := by
  have resolved : Returns (Db.During history) (fun found _ _ _ => ∀ currency, found = some currency →
      ∃ db ∈ history, currencyIn db userId input = some currency) (currencyOf userId input)
      held pend c := by
    unfold currencyOf
    cases given : input.currency with
    | some currency =>
      refine returns_pure.mpr ?_
      rintro _ ⟨⟩
      obtain ⟨db, member⟩ := seen
      exact ⟨db, member, by simp [currencyIn, given]⟩
    | none =>
      refine returns_bind (returns_queryCommitted.mpr fun c' meanwhile => returns_pure.mpr ?_)
      intro currency found
      exact ⟨c', Db.During.mem meanwhile, by simpa [currencyIn, given] using found⟩
  refine returns_bind (resolved.mono fun found held pend c known => ?_)
  cases found with
  | none => exact returns_throw
  | some currency =>
    refine returns_bind (returns_queryCommitted.mpr fun c' _ => ?_)
    cases owned : c'.findWallet (.user userId) currency with
    | none => exact returns_throw
    | some wallet =>
      have own : wallet.owner = .user userId ∧ wallet.currency = currency := by
        simpa using List.find?_some owned
      exact returns_pure.mpr (own.2 ▸ known currency rfl)

theorem quiet_senderWallet (userId : Uuid) (input : TransferInput) :
    Quiet Db.records (senderWallet userId input) := by
  refine quiet_bind ?_ fun found => ?_
  · unfold currencyOf
    cases input.currency with
    | some currency => exact quiet_pure
    | none => exact quiet_bind quiet_queryCommitted fun _ => quiet_pure
  · cases found with
    | none => exact quiet_throw
    | some currency => exact quiet_bind quiet_queryCommitted fun _ => quiet_orThrow

theorem quiet_recipientWallet (recipientId : Uuid) (currency : String) :
    Quiet Db.records (recipientWallet recipientId currency) :=
  quiet_bind quiet_queryCommitted fun _ => quiet_orThrow

/-- The transaction that is made, whatever else is moved with it. -/
theorem returns_move {generated : Generated} {userId recipientId : Uuid} {source destination : Wallet}
    {input : TransferInput} {fee : FeeQuote} {idempotencyKey : String} (clean : Clean Db.records pend)
    (recipient : ∃ db ∈ history, recipientIn db input = some recipientId)
    (currency : ∃ db ∈ history, currencyIn db userId input = some source.currency) :
    Returns (Db.During history) (fun completed _ _ _ =>
        Asked history userId input idempotencyKey completed)
      (move generated userId recipientId source destination input fee idempotencyKey) held pend c := by
  refine returns_bind ((returns_quiet (quiet_assertWithinLimitsWithin _)).mono ?_)
  intro _ held₁ pend₁ c₁ limits
  refine returns_bind ((returns_create (limits.clean (fun _ _ same => same) clean)).mono ?_)
  rintro row held₂ pend₂ c₂ ⟨recorded, -, now, made⟩
  refine returns_bind ((returns_quiet (WalletsService.quiet_transferWithin _ _ _ _)).mono ?_)
  intro posted held₃ pend₃ c₃ moved
  refine returns_bind ((returns_quiet (quiet_collectFee _ _ _ _)).mono ?_)
  intro _ held₄ pend₄ c₄ charged
  have inserted := recorded.since (guards_transaction _) (covers_transaction _)
    (fun _ _ same => records_transactions same) (moved.trans charged)
  refine returns_bind (returns_query.mpr fun c₅ meanwhile => ?_)
  refine returns_bind ((returns_transition (inserted.later (guards_transaction _) meanwhile)).mono ?_)
  rintro _ held₆ pend₆ c₆ rfl
  refine returns_bind (returns_of_forall (fun _ _ _ _ => returns_pure.mpr ?_) _)
  obtain ⟨db, member, resolved⟩ := recipient
  subst made
  unfold newTransaction FeesService.recorded
  split_ifs
  · exact ⟨rfl, rfl, rfl, rfl, ⟨db, member, recipientId, resolved, rfl⟩, currency⟩
  · exact ⟨rfl, rfl, rfl, rfl, ⟨db, member, recipientId, resolved, rfl⟩, currency⟩

variable {userId : Uuid} {input : TransferInput} {idempotencyKey : String}

/-- What the owner may already have under the key. -/
def FoundAsAsked (history : Set Db) (userId : Uuid) (input : TransferInput)
    (idempotencyKey : String) : Prop :=
  ∀ db ∈ history, ∀ existing, db.findByIdempotencyKey (.user userId) idempotencyKey = some existing →
    Asked history userId input idempotencyKey existing

theorem returns_recover (found : FoundAsAsked history userId input idempotencyKey) (error : Err) :
    Returns (Db.During history) (fun winner _ _ _ => Asked history userId input idempotencyKey winner)
      (recover userId idempotencyKey error) held pend c := by
  unfold recover
  split_ifs
  · refine returns_bind (returns_queryCommitted.mpr fun c' meanwhile => ?_)
    cases there : c'.findByIdempotencyKey (.user userId) idempotencyKey with
    | none => exact returns_throw
    | some winner => exact returns_pure.mpr (found c' (Db.During.mem meanwhile) winner there)
  · exact returns_throw

theorem returns_transferNew {generated : Generated} (clean : Clean Db.records pend)
    (found : FoundAsAsked history userId input idempotencyKey) :
    Returns (Db.During history) (fun transaction _ _ _ =>
        Asked history userId input idempotencyKey transaction)
      (transferNew generated userId input idempotencyKey) held pend c := by
  refine returns_bind (returns_queryCommitted.mpr fun c₁ meanwhile => ?_)
  have seen : c₁ ∈ history := Db.During.mem meanwhile
  cases resolved : c₁.users.find? fun user => user.email = normalizeEmail input.recipientEmail with
  | none => exact returns_throw
  | some recipient =>
    have named : ∃ db ∈ history, recipientIn db input = some recipient.id :=
      ⟨c₁, seen, by simp [recipientIn, resolved]⟩
    refine returns_bind (returns_pure.mpr ?_)
    split_ifs
    · exact returns_throw
    refine returns_bind (((returns_senderWallet ⟨c₁, seen⟩ userId input).and
      (returns_quiet (quiet_senderWallet userId input))).mono ?_)
    rintro source held₂ pend₂ c₂ ⟨currency, own⟩
    refine returns_bind ((returns_quiet (quiet_recipientWallet _ _)).mono ?_)
    intro destination held₃ pend₃ c₃ other
    refine returns_bind ((returns_quiet (quiet_quote _ _ _ _)).mono ?_)
    intro fee held₄ pend₄ c₄ priced
    refine returns_tryCatch (returns_transaction ?_) fun e _ _ _ => returns_recover found e
    have still := ((own.trans other).trans priced).clean (fun _ _ same => same) clean
    refine (returns_move still named currency).mono fun completed _ _ _ asked => ?_
    exact returns_of_forall (fun _ _ _ _ _ _ => asked) _

/-- A transfer is answered with what was asked for if and only if what the call can find under its
key was. -/
theorem returns_asked_iff {generated : Generated} :
    (∀ c, Returns (Db.During history) (fun transaction _ _ _ =>
        Asked history userId input idempotencyKey transaction)
      (transfer generated userId input idempotencyKey) [] id c) ↔
      FoundAsAsked history userId input idempotencyKey := by
  constructor
  · intro returns db member existing there
    have found := returns_alone member (returns db)
    rw [there] at found
    exact returns_pure.mp found
  · intro found c
    refine returns_bind (returns_queryCommitted.mpr fun c₁ meanwhile => ?_)
    cases there : c₁.findByIdempotencyKey (.user userId) idempotencyKey with
    | some existing => exact returns_pure.mpr (found c₁ (Db.During.mem meanwhile) existing there)
    | none => exact returns_transferNew (fun _ => rfl) found

end TransfersService

/-! ## Payouts -/

namespace PayoutsService

/-- The payout and its withdrawal are of this owner, with what the input says. -/
structure Asked (owner : Owner) (input : RequestPayoutInput) (idempotencyKey : String)
    (view : PayoutView) : Prop where
  type : view.transaction.type = .withdrawal
  owner : view.transaction.owner = owner
  idempotencyKey : view.transaction.idempotencyKey = some idempotencyKey
  amount : view.transaction.amount = input.amount ∧ view.payout.amount = input.amount
  transaction : view.payout.transactionId = view.transaction.id
  destination : view.payout.destinationId = input.destinationId ∧
    view.destination.id = input.destinationId

/-- The rows of a payout that was asked for with this input. -/
def Made (owner : Owner) (input : RequestPayoutInput) (idempotencyKey : String)
    (id transactionId : Uuid) (db : Db) : Prop :=
  ∃ payout row, db.payouts.find? id = some payout ∧ db.transactions.find? transactionId = some row ∧
    payout.transactionId = transactionId ∧ payout.destinationId = input.destinationId ∧
    payout.amount = input.amount ∧ row.type = .withdrawal ∧ row.owner = owner ∧
    row.idempotencyKey = some idempotencyKey ∧ row.amount = input.amount

variable {owner : Owner} {input : RequestPayoutInput} {idempotencyKey : String}
  {payoutId transactionId : Uuid}

theorem Made.keep {c' : Db} (keeps : c.Keeps c') (made : Made owner input idempotencyKey payoutId transactionId c) :
    Made owner input idempotencyKey payoutId transactionId c' := by
  obtain ⟨payout, row, there, under, link, destination, amount, type, mine, key, same⟩ := made
  obtain ⟨payout', there', link', destination', amount'⟩ := keeps.payouts _ _ there
  obtain ⟨row', under', type', mine', -, same', -, key'⟩ := keeps.transactions _ _ under
  exact ⟨payout', row', there', under', link'.trans link, destination'.trans destination,
    amount'.trans amount, type'.trans type, mine'.trans mine, key'.trans key, same'.trans same⟩

theorem returns_view (made : Made owner input idempotencyKey payoutId transactionId c) :
    Returns (Db.During history) (fun view _ _ _ => Asked owner input idempotencyKey view) (view payoutId)
      held pend c := by
  refine returns_bind (returns_queryCommitted.mpr fun c₁ meanwhile => ?_)
  have first : Made owner input idempotencyKey payoutId transactionId c₁ := made.keep meanwhile.1.2
  have second : ∀ c₂, c₁.Keeps c₂ → Made owner input idempotencyKey payoutId transactionId c₂ :=
    fun _ keeps => first.keep keeps
  obtain ⟨found, -, there, -, link, -⟩ := first
  simp only [there]
  refine returns_bind (returns_pure.mpr (returns_bind (returns_bind
    (returns_queryCommitted.mpr fun c₂ meanwhile => ?_))))
  have third : ∀ c₃, c₂.Keeps c₃ → Made owner input idempotencyKey payoutId transactionId c₃ :=
    fun _ keeps => (second c₂ meanwhile.1.2).keep keeps
  obtain ⟨-, row, -, under, -, -, -, type, mine, key, amount⟩ := second c₂ meanwhile.1.2
  simp only [link, under]
  refine returns_pure.mpr (returns_bind (returns_queryCommitted.mpr fun c₃ meanwhile => ?_))
  obtain ⟨payout, -, again, -, linked, destination, same, -⟩ := third c₃ meanwhile.1.2
  simp only [again]
  refine returns_bind (returns_pure.mpr (returns_bind
    (returns_queryCommitted.mpr fun c₄ _ => ?_)))
  cases known : c₄.destinations.find? payout.destinationId with
  | none => exact returns_bind returns_throw
  | some account =>
    have own : account.id = payout.destinationId := (Table.find?_some known).2
    refine returns_bind (returns_pure.mpr (returns_pure.mpr ?_))
    have rowId : row.id = transactionId := (Table.find?_some under).2
    exact ⟨type, mine, key, ⟨amount, same⟩, linked.trans rowId.symm,
      ⟨destination, own.trans destination⟩⟩

/-- What the owner may already have under the key. -/
def FoundAsAsked (history : Set Db) (owner : Owner) (input : RequestPayoutInput)
    (idempotencyKey : String) : Prop :=
  ∀ db ∈ history, ∀ existing payout, db.findByIdempotencyKey owner idempotencyKey = some existing →
    db.findPayoutByTransaction existing.id = some payout →
    payout.destinationId = input.destinationId ∧ payout.amount = input.amount

/-- The payout that is found under the key was asked for in the same words. -/
theorem returns_viewByTransaction (intact : ∀ db ∈ history, db.Intact)
    (found : FoundAsAsked history owner input idempotencyKey) {existing : Transaction}
    (there : c.findByIdempotencyKey owner idempotencyKey = some existing) :
    Returns (Db.During history) (fun view _ _ _ => Asked owner input idempotencyKey view)
      (viewByTransaction existing.id) held pend c := by
  refine returns_bind (returns_queryCommitted.mpr fun c₁ meanwhile => ?_)
  have seen := Db.During.mem meanwhile
  cases paid : c₁.findPayoutByTransaction existing.id with
  | none => exact returns_throw
  | some payout =>
    suffices asked : Made owner input idempotencyKey payout.id existing.id c₁ from
      returns_bind (returns_pure.mpr (returns_view asked))
    obtain ⟨row, kept, mine, given, again⟩ :=
      meanwhile.1.2.findByIdempotencyKey (intact c₁ seen) there
    obtain ⟨rowMember, rowId⟩ := Table.find?_some kept
    have under : c₁.findPayoutByTransaction row.id = some payout := by
      rw [show row.id = existing.id from rowId, paid]
    obtain ⟨destination, amount⟩ := found c₁ seen row payout again under
    have payoutMember : payout ∈ c₁.payouts := List.mem_of_find?_eq_some paid
    have link : payout.transactionId = existing.id := by simpa using List.find?_some paid
    obtain ⟨withdrawal, withdrawalMember, withdrawalId, type, same⟩ :=
      (intact c₁ seen).payouts payout payoutMember
    obtain rfl : withdrawal = row :=
      Table.eq_of_key withdrawalMember rowMember (withdrawalId.trans (link.trans rowId.symm))
    exact ⟨payout, withdrawal, Table.find?_of_mem payoutMember, kept, link, destination, amount, type,
      mine, given, same.trans amount⟩

theorem returns_recover (intact : ∀ db ∈ history, db.Intact)
    (found : FoundAsAsked history owner input idempotencyKey) (error : Err) :
    Returns (Db.During history) (fun winner _ _ _ => Asked owner input idempotencyKey winner)
      (recover owner idempotencyKey error) held pend c := by
  unfold recover
  split_ifs
  · refine returns_bind (returns_queryCommitted.mpr fun c' _ => ?_)
    cases there : c'.findByIdempotencyKey owner idempotencyKey with
    | none => exact returns_throw
    | some winner => exact returns_viewByTransaction intact found there
  · exact returns_throw

/-- The payout and its withdrawal are inserted together. -/
theorem returns_createWithHold {generated : Generated} {wallet : Wallet}
    {destination : PayoutDestination} {fee : FeeQuote} (clean : Clean Db.records pend)
    (named : destination.id = input.destinationId) :
    Returns (Db.During history) (fun payout held pend c => ∃ row, Recorded row held pend c ∧
        RecordedPayout payout held pend c ∧ ∀ db, db.payouts.find? payout.id = some payout →
          db.transactions.find? row.id = some row →
          Made owner input idempotencyKey payout.id row.id db)
      (createWithHold generated owner wallet destination input fee idempotencyKey) held pend c := by
  refine returns_bind ((returns_quiet (quiet_assertWithinLimitsWithin _)).mono ?_)
  intro _ held₁ pend₁ c₁ limits
  refine returns_bind ((returns_create (limits.clean (fun _ _ same => same) clean)).mono ?_)
  rintro row held₂ pend₂ c₂ ⟨recorded, untouched, now, made⟩
  refine returns_bind ((returns_quiet (WalletsService.quiet_reserveWithin _ _ _)).mono ?_)
  intro _ held₃ pend₃ c₃ reserved
  have inserted := recorded.since (guards_transaction _) (covers_transaction _)
    (fun _ _ same => records_transactions same) reserved
  have payouts : Clean Db.payouts pend₃ := reserved.clean (fun _ _ same => records_payouts same)
    fun db => congrArg Prod.snd (untouched db)
  refine returns_bind (returns_query.mpr fun c₄ meanwhile => ?_)
  have later := inserted.later (guards_transaction _) meanwhile
  refine returns_bind ((returns_savePayout payouts).mono ?_)
  rintro _ held₅ pend₅ c₅ ⟨saved, since⟩
  refine returns_pure.mpr ⟨row, later.since (guards_transaction _)
    (covers_ownTransaction _) (fun _ _ same => same) since, saved, ?_⟩
  intro db there under
  subst made
  refine ⟨_, _, there, under, rfl, named, rfl, ?_⟩
  unfold newTransaction FeesService.recorded
  split_ifs <;> exact ⟨rfl, rfl, rfl, rfl⟩

/-- Of the outcome of the attempt: a payout that was made, or what another call has made. -/
def Settled (owner : Owner) (input : RequestPayoutInput) (idempotencyKey : String) :
    Payout ⊕ PayoutView → Db → Prop
  | .inl payout, db => ∃ transactionId, Made owner input idempotencyKey payout.id transactionId db
  | .inr winner, _ => Asked owner input idempotencyKey winner

theorem returns_requestNew {generated : Generated} (clean : Clean Db.records pend)
    (intact : ∀ db ∈ history, db.Intact)
    (found : FoundAsAsked history owner input idempotencyKey) :
    Returns (Db.During history) (fun view _ _ _ => Asked owner input idempotencyKey view)
      (requestNew generated owner input idempotencyKey) held pend c := by
  refine returns_bind (returns_bind (returns_queryCommitted.mpr fun c₁ _ => ?_))
  cases active : (c₁.destinations.find? input.destinationId).filter
      fun destination => destination.owner = owner && destination.removedAt.isNone with
  | none => exact returns_throw
  | some destination =>
    have named : destination.id = input.destinationId :=
      (Table.find?_some (Option.filter_eq_some_iff.mp active).1).2
    refine returns_pure.mpr (returns_bind (returns_queryCommitted.mpr fun c₂ _ => ?_))
    split_ifs
    · exact returns_throw
    refine returns_bind ((returns_quiet (quiet_sourceWallet owner destination input.walletId)).mono ?_)
    intro wallet held₃ pend₃ c₃ own
    refine returns_bind ((returns_quiet (quiet_quote _ _ _ _)).mono ?_)
    intro fee held₄ pend₄ c₄ priced
    have still := (own.trans priced).clean (fun _ _ same => same) clean
    refine returns_bind (Returns.mono (R := fun outcome _ _ c =>
      Settled owner input idempotencyKey outcome c) ?_ ?_)
    · rintro (payout | winner) held₅ pend₅ c₅ settled
      · obtain ⟨transactionId, made⟩ := settled
        exact returns_view made
      · exact returns_pure.mpr settled
    · refine returns_tryCatch (returns_bind (returns_transaction ?_)) fun e _ _ _ =>
        returns_bind ((returns_recover intact found e).mono fun winner _ _ _ asked =>
          returns_pure.mpr asked)
      refine (returns_createWithHold still named).mono ?_
      rintro payout held₅ pend₅ c₅ ⟨row, recorded, saved, made⟩
      refine (returns_quiet LedgerService.quiet_deferredConstraints).mono ?_
      intro _ held₆ pend₆ c₆ since c₇ meanwhile
      have committed := (recorded.since (guards_transaction _) (covers_transaction _)
        (fun _ _ same => records_transactions same) since).later (guards_transaction _) meanwhile
      have paid := (saved.since (guards_payout _) (covers_payout _)
        (fun _ _ same => records_payouts same) since).later (guards_payout _) meanwhile
      exact returns_pure.mpr ⟨row.id, made _ paid.found committed.found⟩

/-- What the call finds with nobody else about, it answers with. -/
theorem asked_of_returns {generated : Generated} {db : Db} (member : db ∈ history) (intact : db.Intact)
    (returns : Returns (Db.During history) (fun view _ _ _ => Asked owner input idempotencyKey view)
      (request generated owner input idempotencyKey) [] id db)
    {existing : Transaction} {payout : Payout}
    (there : db.findByIdempotencyKey owner idempotencyKey = some existing)
    (paid : db.findPayoutByTransaction existing.id = some payout) :
    payout.destinationId = input.destinationId ∧ payout.amount = input.amount := by
  have payoutMember : payout ∈ db.payouts := List.mem_of_find?_eq_some paid
  obtain ⟨row, rowMember, rowId, -⟩ := intact.payouts payout payoutMember
  obtain ⟨destination, known⟩ :=
    Option.isSome_iff_exists.mp (intact.destinations payout payoutMember)
  have again : db.payouts.find? payout.id = some payout := Table.find?_of_mem payoutMember
  have under : db.transactions.find? payout.transactionId = some row :=
    rowId ▸ Table.find?_of_mem rowMember
  have found := returns_alone member returns
  rw [there] at found
  have viewed := returns_alone member found
  rw [paid] at viewed
  have first := returns_alone member viewed
  rw [again] at first
  have second := returns_alone member (returns_of_bind first)
  rw [under] at second
  have third := returns_alone member ((returns_pure (a := row)).mp second)
  rw [again] at third
  have fourth := returns_alone member third
  rw [known] at fourth
  have asked := (returns_pure (a := PayoutView.mk payout row destination)).mp fourth
  exact ⟨asked.destination.1, asked.amount.2⟩

/-- A request is answered with what was asked for if and only if the payout that the call can find
under its key was. -/
theorem returns_asked_iff {generated : Generated} (intact : ∀ db ∈ history, db.Intact) :
    (∀ c, Returns (Db.During history) (fun view _ _ _ => Asked owner input idempotencyKey view)
      (request generated owner input idempotencyKey) [] id c) ↔
      FoundAsAsked history owner input idempotencyKey := by
  constructor
  · intro returns db member existing payout there paid
    exact asked_of_returns member (intact db member) (returns db) there paid
  · intro found c
    refine returns_bind (returns_queryCommitted.mpr fun c₁ _ => ?_)
    cases there : c₁.findByIdempotencyKey owner idempotencyKey with
    | some existing => exact returns_viewByTransaction intact found there
    | none => exact returns_requestNew (fun _ => rfl) intact found

end PayoutsService

/-! ## Payments -/

namespace PaymentsService

/-- The payment and its transaction are of this owner, with what the input says. -/
structure Asked (owner : Owner) (input : InitializePaymentInput) (idempotencyKey : String)
    (view : PaymentView) : Prop where
  type : view.transaction.type = .payment
  owner : view.transaction.owner = owner
  idempotencyKey : view.transaction.idempotencyKey = some idempotencyKey
  transaction : view.payment.transactionId = view.transaction.id
  amount : view.transaction.amount = input.amount ∧ view.payment.amount = input.amount
  currency : view.transaction.currency = input.currency ∧ view.payment.currency = input.currency

/-- The rows of a payment that was asked for with this input. -/
def Made (owner : Owner) (input : InitializePaymentInput) (idempotencyKey : String)
    (paymentId transactionId : Uuid) (db : Db) : Prop :=
  ∃ payment row, db.payments.find? paymentId = some payment ∧
    db.transactions.find? transactionId = some row ∧ payment.transactionId = transactionId ∧
    payment.amount = input.amount ∧ payment.currency = input.currency ∧ row.type = .payment ∧
    row.owner = owner ∧ row.idempotencyKey = some idempotencyKey ∧ row.amount = input.amount ∧
    row.currency = input.currency

variable {owner : Owner} {input : InitializePaymentInput} {idempotencyKey : String}
  {paymentId transactionId : Uuid} {payment : Payment}

theorem Made.keep {c' : Db} (keeps : c.Keeps c')
    (made : Made owner input idempotencyKey paymentId transactionId c) :
    Made owner input idempotencyKey paymentId transactionId c' := by
  obtain ⟨payment, row, there, under, link, amount, currency, type, mine, key, same, alike⟩ := made
  obtain ⟨payment', there', link', amount', currency'⟩ := keeps.payments _ _ there
  obtain ⟨row', under', type', mine', -, same', alike', key'⟩ := keeps.transactions _ _ under
  exact ⟨payment', row', there', under', link'.trans link, amount'.trans amount,
    currency'.trans currency, type'.trans type, mine'.trans mine, key'.trans key, same'.trans same,
    alike'.trans alike⟩

theorem returns_view (link : payment.transactionId = transactionId)
    (made : Made owner input idempotencyKey payment.id transactionId c) :
    Returns (Db.During history) (fun view _ _ _ => Asked owner input idempotencyKey view)
      (view payment) held pend c := by
  refine returns_bind (returns_bind (returns_queryCommitted.mpr fun c₁ meanwhile => ?_))
  have second : ∀ c₂, c₁.Keeps c₂ → Made owner input idempotencyKey payment.id transactionId c₂ :=
    fun _ keeps => (made.keep meanwhile.1.2).keep keeps
  obtain ⟨-, row, -, under, -, -, -, type, mine, key, amount, currency⟩ := made.keep meanwhile.1.2
  simp only [link, under]
  refine returns_pure.mpr (returns_bind (returns_queryCommitted.mpr fun c₂ meanwhile => ?_))
  obtain ⟨current, -, there, -, linked, same, alike, -⟩ := second c₂ meanwhile.1.2
  simp only [there]
  have asked : ∀ quote, Asked owner input idempotencyKey ⟨current, row, quote⟩ := fun quote =>
    ⟨type, mine, key, linked.trans (Table.find?_some under).2.symm, ⟨amount, same⟩, ⟨currency, alike⟩⟩
  refine returns_bind (returns_pure.mpr ?_)
  split
  · refine returns_bind (returns_of_forall (fun quote _ _ _ => ?_) _)
    exact returns_bind (returns_pure.mpr (returns_pure.mpr (asked (some quote))))
  · exact returns_bind (returns_pure.mpr (returns_pure.mpr (asked none)))

theorem preserves_view {K : Db → Prop} (payment : Payment) : Preserves K (view payment) := by
  have read : ∀ {α : Type} {run : Db → α}, Preserves K (Txn.queryCommitted run : DbTxn α) :=
    ⟨fun _ here => here, fun _ => trivial⟩
  have orThrow_ : ∀ {α : Type} {e : Err} {found : Option α}, Preserves K (orThrow e found) := by
    rintro α e (_ | _) <;> trivial
  refine preserves_bind (preserves_bind read fun _ => orThrow_) fun transaction =>
    preserves_bind read fun found => preserves_bind ?_ fun current => ?_
  · cases found <;> trivial
  · dsimp only
    split
    · refine preserves_bind (preserves_bind read fun found => preserves_bind orThrow_ fun quote => ?_)
        fun _ => preserves_bind preserves_pure fun _ => preserves_pure
      exact preserves_pure
    · exact preserves_bind preserves_pure fun _ => preserves_pure

/-- Whatever the provider answers, the payment is the one that was given. -/
theorem returns_ensureInitialized {outside : Outside}
    (made : Made owner input idempotencyKey payment.id payment.transactionId c) :
    Returns (Db.During history) (fun view _ _ _ => Asked owner input idempotencyKey view)
      (ensureInitialized outside payment) held id c := by
  have stays : ∀ c c', Db.Keeps c c' →
      Made owner input idempotencyKey payment.id payment.transactionId c →
      Made owner input idempotencyKey payment.id payment.transactionId c' :=
    fun _ _ keeps here => here.keep keeps
  have others : ∀ c c', Db.During history c c' →
      Made owner input idempotencyKey payment.id payment.transactionId c →
      Made owner input idempotencyKey payment.id payment.transactionId c' :=
    fun _ _ step here => here.keep step.2
  refine returns_bind (((returns_view rfl made).and
    (returns_preserves others (preserves_view payment) ⟨made, fun _ here => here⟩)).mono ?_)
  rintro before held₁ pend₁ c₁ ⟨asked, known⟩
  split_ifs
  · exact returns_pure.mpr asked
  have last : ∀ held pend c, Keeping (Made owner input idempotencyKey payment.id payment.transactionId)
      pend c → Returns (Db.During history) (fun view _ _ _ => Asked owner input idempotencyKey view)
        (do
          let found ← Txn.queryCommitted fun db => db.payments.find? payment.id
          let again ← orFail "Payment" found
          view again) held pend c := by
    intro held pend c known
    refine returns_bind (returns_queryCommitted.mpr fun c₂ meanwhile => ?_)
    have here : Made owner input idempotencyKey payment.id payment.transactionId c₂ :=
      known.1.keep meanwhile.1.2
    have after : ∀ again : Payment, again.id = payment.id →
        Made owner input idempotencyKey again.id payment.transactionId c₂ := fun _ same => same ▸ here
    obtain ⟨again, -, there, -, link, -⟩ := here
    simp only [there]
    exact returns_bind (returns_pure.mpr (returns_view link (after again (Table.find?_some there).2)))
  split
  · refine returns_bind ((returns_preserves others (preserves_tryCatch
      (preserves_setProviderReference stays _ _) fun _ => preserves_throw) known).mono ?_)
    exact fun _ held pend c here => last held pend c here
  · refine returns_bind ((returns_preserves others (preserves_onProviderError stays _ _) known).mono ?_)
    exact fun _ held pend c here => last held pend c here

/-- What the owner may already have under the key. -/
def FoundAsAsked (history : Set Db) (owner : Owner) (input : InitializePaymentInput)
    (idempotencyKey : String) : Prop :=
  ∀ db ∈ history, ∀ existing payment, db.findByIdempotencyKey owner idempotencyKey = some existing →
    db.findPaymentByTransaction existing.id = some payment →
    payment.amount = input.amount ∧ payment.currency = input.currency

/-- The payment that is found under the key was asked for in the same words. -/
theorem returns_findByTransaction (intact : ∀ db ∈ history, db.Intact)
    (found : FoundAsAsked history owner input idempotencyKey) {existing : Transaction}
    (there : c.findByIdempotencyKey owner idempotencyKey = some existing) :
    Returns (Db.During history) (fun payment _ pend' c => pend' = pend ∧
        Made owner input idempotencyKey payment.id payment.transactionId c)
      (findByTransaction existing.id) held pend c := by
  refine returns_bind (returns_queryCommitted.mpr fun c₁ meanwhile => ?_)
  have seen := Db.During.mem meanwhile
  cases paid : c₁.findPaymentByTransaction existing.id with
  | none => exact returns_throw
  | some payment =>
    refine returns_pure.mpr ⟨rfl, ?_⟩
    obtain ⟨row, kept, mine, given, again⟩ :=
      meanwhile.1.2.findByIdempotencyKey (intact c₁ seen) there
    obtain ⟨rowMember, rowId⟩ := Table.find?_some kept
    have under : c₁.findPaymentByTransaction row.id = some payment := by
      rw [show row.id = existing.id from rowId, paid]
    obtain ⟨amount, currency⟩ := found c₁ seen row payment again under
    have paymentMember : payment ∈ c₁.payments := List.mem_of_find?_eq_some paid
    have link : payment.transactionId = existing.id := by simpa using List.find?_some paid
    obtain ⟨other, otherMember, otherId, type, same, alike⟩ :=
      (intact c₁ seen).payments payment paymentMember
    obtain rfl : other = row :=
      Table.eq_of_key otherMember rowMember (otherId.trans (link.trans rowId.symm))
    exact ⟨payment, other, Table.find?_of_mem paymentMember, link ▸ kept, rfl, amount, currency, type,
      mine, given, same.trans amount, alike.trans currency⟩

theorem returns_recover (intact : ∀ db ∈ history, db.Intact)
    (found : FoundAsAsked history owner input idempotencyKey) (error : Err) :
    Returns (Db.During history) (fun winner _ _ _ => Asked owner input idempotencyKey winner)
      (recover owner idempotencyKey error) held pend c := by
  unfold recover
  split_ifs
  · refine returns_bind (returns_queryCommitted.mpr fun c' _ => ?_)
    cases there : c'.findByIdempotencyKey owner idempotencyKey with
    | none => exact returns_throw
    | some winner =>
      refine returns_bind ((returns_findByTransaction intact found there).mono ?_)
      exact fun payment _ _ _ made => returns_view rfl made.2
  · exact returns_throw

/-- The payment and its transaction are inserted together. -/
theorem returns_createPending {generated : Generated} {wallet : Wallet} {providerName : String}
    {quote : Option FxQuote} {fee : FeeQuote} (clean : Clean Db.records pend) :
    Returns (Db.During history) (fun payment held pend c => ∃ row, Recorded row held pend c ∧
        RecordedPayment payment held pend c ∧ ∀ db, db.payments.find? payment.id = some payment →
          db.transactions.find? row.id = some row →
          Made owner input idempotencyKey payment.id payment.transactionId db)
      (createPending generated owner wallet providerName input quote fee idempotencyKey)
      held pend c := by
  refine returns_bind ((returns_quiet (quiet_assertWithinLimitsWithin _)).mono ?_)
  intro _ held₁ pend₁ c₁ limits
  refine returns_bind ((returns_create (limits.clean (fun _ _ same => same) clean)).mono ?_)
  rintro row held₂ pend₂ c₂ ⟨recorded, untouched, now, made⟩
  refine returns_bind (returns_query.mpr fun c₃ meanwhile => ?_)
  have later := recorded.later (guards_transaction _) meanwhile
  refine returns_bind ((returns_savePayment fun db => congrArg Prod.fst (untouched db)).mono ?_)
  rintro _ held₄ pend₄ c₄ ⟨saved, since⟩
  refine returns_pure.mpr ⟨row, later.since (guards_transaction _)
    (covers_ownTransaction _) (fun _ _ same => same) since, saved, ?_⟩
  intro db there under
  subst made
  refine ⟨_, _, there, under, rfl, rfl, rfl, ?_⟩
  unfold newTransaction FeesService.recorded
  split_ifs <;> exact ⟨rfl, rfl, rfl, rfl, rfl⟩

/-- Of the outcome of the attempt: a payment that was made, or what another call has made. -/
def Settled (owner : Owner) (input : InitializePaymentInput) (idempotencyKey : String) :
    Payment ⊕ PaymentView → (Db → Db) → Db → Prop
  | .inl payment, pend, db => pend = id ∧
      Made owner input idempotencyKey payment.id payment.transactionId db
  | .inr winner, _, _ => Asked owner input idempotencyKey winner

theorem returns_initializeNew {generated : Generated} {outside : Outside}
    (clean : Clean Db.records pend) (intact : ∀ db ∈ history, db.Intact)
    (found : FoundAsAsked history owner input idempotencyKey) :
    Returns (Db.During history) (fun view _ _ _ => Asked owner input idempotencyKey view)
      (initializeNew generated outside owner input idempotencyKey) held pend c := by
  refine returns_bind (returns_ret.mpr fun provider _ => ?_)
  refine returns_bind ((returns_quiet (quiet_customerEmailFor owner input)).mono ?_)
  intro _ held₁ pend₁ c₁ email
  refine returns_bind ((returns_quiet (quiet_resolveCreditTarget owner input.currency)).mono ?_)
  intro target held₂ pend₂ c₂ resolved
  refine returns_bind ((returns_quiet (quiet_quoteFor generated outside owner target input)).mono ?_)
  intro quote held₃ pend₃ c₃ quoted
  refine returns_bind ((returns_quiet (quiet_quoteCovered _ _ _ _)).mono ?_)
  intro fee held₄ pend₄ c₄ priced
  have still := (((email.trans resolved).trans quoted).trans priced).clean (fun _ _ same => same) clean
  refine returns_bind (Returns.mono (R := fun outcome _ pend c =>
    Settled owner input idempotencyKey outcome pend c) ?_ ?_)
  · rintro (payment | winner) held₅ pend₅ c₅ settled
    · obtain ⟨rfl, made⟩ := settled
      exact returns_ensureInitialized made
    · exact returns_pure.mpr settled
  · refine returns_tryCatch (returns_bind (returns_transaction ?_)) fun e _ _ _ =>
      returns_bind ((returns_recover intact found e).mono fun winner _ _ _ asked =>
        returns_pure.mpr asked)
    refine (returns_createPending still).mono ?_
    rintro payment held₅ pend₅ c₅ ⟨row, recorded, saved, made⟩
    refine (returns_quiet LedgerService.quiet_deferredConstraints).mono ?_
    intro _ held₆ pend₆ c₆ since c₇ meanwhile
    have committed := (recorded.since (guards_transaction _) (covers_transaction _)
      (fun _ _ same => records_transactions same) since).later (guards_transaction _) meanwhile
    have paid := (saved.since (guards_payment _) (covers_payment _)
      (fun _ _ same => records_payments same) since).later (guards_payment _) meanwhile
    exact returns_pure.mpr ⟨rfl, made _ paid.found committed.found⟩

/-- A payment is answered with what was asked for if the payment that the call can find under its key
was. -/
theorem returns_asked {generated : Generated} {outside : Outside}
    (intact : ∀ db ∈ history, db.Intact)
    (found : FoundAsAsked history owner input idempotencyKey) :
    Returns (Db.During history) (fun view _ _ _ => Asked owner input idempotencyKey view)
      (initializePayment generated outside owner input idempotencyKey) [] id c := by
  refine returns_bind (returns_queryCommitted.mpr fun c₁ _ => ?_)
  cases there : c₁.findByIdempotencyKey owner idempotencyKey with
  | some existing =>
    refine returns_bind ((returns_findByTransaction intact found there).mono ?_)
    rintro payment held pend c ⟨rfl, made⟩
    exact returns_ensureInitialized made
  | none => exact returns_initializeNew (fun _ => rfl) intact found

/-- A payment that has its checkout, and needs no conversion, is answered with as it is. -/
theorem asked_of_returns {generated : Generated} {outside : Outside} {db : Db} (member : db ∈ history)
    (returns : Returns (Db.During history) (fun view _ _ _ => Asked owner input idempotencyKey view)
      (initializePayment generated outside owner input idempotencyKey) [] id db)
    {existing row : Transaction}
    (there : db.findByIdempotencyKey owner idempotencyKey = some existing)
    (charged : db.findPaymentByTransaction existing.id = some payment)
    (under : db.transactions.find? payment.transactionId = some row)
    (plain : payment.fxQuoteId = none)
    (settled : payment.providerReference.any (· ≠ "") ∨ row.status ≠ .pending) :
    payment.amount = input.amount ∧ payment.currency = input.currency := by
  have again : db.payments.find? payment.id = some payment :=
    Table.find?_of_mem (List.mem_of_find?_eq_some charged)
  have found := returns_alone member returns
  rw [there] at found
  have paid := returns_alone member (returns_of_bind found)
  rw [charged] at paid
  have viewed := returns_alone member
    (returns_of_bind (returns_of_bind ((returns_pure (a := payment)).mp paid)))
  rw [under] at viewed
  have current := returns_alone member ((returns_pure (a := row)).mp viewed)
  rw [again] at current
  have quoted := (returns_pure (a := payment)).mp (returns_of_bind current)
  simp only [plain] at quoted
  have whole := (returns_pure (a := PaymentView.mk payment row none)).mp quoted
  rw [if_pos settled] at whole
  have asked := returns_pure.mp whole
  exact ⟨asked.amount.2, asked.currency.2⟩

end PaymentsService

/-! ## Keys that are used -/

def sentRow : Transaction where
  id := 11
  reference := "trx_1"
  type := .transfer
  status := .successful
  owner := .user 1
  counterpartyUserId := some 2
  amount := 500
  currency := "NGN"
  idempotencyKey := some "sent"
  createdAt := 0

def paidRow : Transaction where
  id := 12
  reference := "trx_2"
  type := .withdrawal
  status := .processing
  owner := .user 1
  amount := 700
  currency := "NGN"
  idempotencyKey := some "paid"
  createdAt := 0

def chargedRow : Transaction where
  id := 13
  reference := "trx_3"
  type := .payment
  status := .successful
  owner := .user 1
  amount := 900
  currency := "NGN"
  idempotencyKey := some "charged"
  createdAt := 0

def paidPayout : Payout where
  id := 21
  reference := "pyt_1"
  transactionId := 12
  owner := .user 1
  walletId := 41
  destinationId := 31
  provider := "paystack"
  amount := 700
  currency := "NGN"
  createdAt := 0

def chargedPayment : Payment where
  id := 22
  transactionId := 13
  owner := .user 1
  walletId := 41
  provider := "paystack"
  amount := 900
  currency := "NGN"
  fxQuoteId := none

def bankAccount : PayoutDestination := ⟨31, .user 1, "paystack", "NGN", 0, none⟩

/-- A user has sent 500 to another, paid out 700 and paid in 900, each under a key of its own. -/
def usedKeys : Db :=
  { Db.empty with
    users := [⟨1, "ada@example.com"⟩, ⟨2, "ben@example.com"⟩, ⟨3, "cy@example.com"⟩]
    transactions := ⟨[sentRow, paidRow, chargedRow], by decide⟩
    payouts := ⟨[paidPayout], by decide⟩
    payments := ⟨[chargedPayment], by decide⟩
    destinations := ⟨[bankAccount], by decide⟩ }

theorem usedKeys_intact : usedKeys.Intact where
  keys := by decide +kernel
  payments := by decide +kernel
  payouts := by decide +kernel
  destinations := by decide +kernel

/-- The transfer of 500 to one user is the answer to a transfer of 100 to another, the payout of 700 to
a payout of 50 to another account, and the payment of 900 NGN to a payment of 10 USD. -/
theorem answers_with_earlier_operation :
    ¬ Returns (Db.During {usedKeys}) (fun transaction _ _ _ =>
        TransfersService.Asked {usedKeys} 1 ⟨"cy@example.com", 100, some "NGN", none⟩ "sent" transaction)
      (TransfersService.transfer ⟨fun _ => 99, 0⟩ 1 ⟨"cy@example.com", 100, some "NGN", none⟩ "sent")
      [] id usedKeys ∧
    ¬ Returns (Db.During {usedKeys}) (fun view _ _ _ =>
        PayoutsService.Asked (.user 1) ⟨32, 50, none⟩ "paid" view)
      (PayoutsService.request ⟨fun _ => 99, 0, 0⟩ (.user 1) ⟨32, 50, none⟩ "paid") [] id usedKeys ∧
    ¬ Returns (Db.During {usedKeys}) (fun view _ _ _ =>
        PaymentsService.Asked (.user 1) ⟨10, "USD", none, none⟩ "charged" view)
      (PaymentsService.initializePayment ⟨fun _ => 99, 0⟩
        ⟨⟨[], [], [], "stripe"⟩, fun _ _ _ => .error (.entityNotFound "FxRate"), fun _ _ => .ok "ref"⟩
        (.user 1) ⟨10, "USD", none, none⟩ "charged") [] id usedKeys := by
  have member : usedKeys ∈ ({usedKeys} : Set Db) := rfl
  refine ⟨fun returns => ?_, fun returns => ?_, fun returns => ?_⟩
  · have found := returns_alone member returns
    rw [show usedKeys.findByIdempotencyKey (.user 1) "sent" = some sentRow by decide +kernel] at found
    have amount := (returns_pure.mp found).amount
    simp [sentRow] at amount
  · have asked := PayoutsService.asked_of_returns member usedKeys_intact returns
      (show usedKeys.findByIdempotencyKey (.user 1) "paid" = some paidRow by decide +kernel)
      (show usedKeys.findPayoutByTransaction 12 = some paidPayout by decide +kernel)
    simp [paidPayout] at asked
  · have asked := PaymentsService.asked_of_returns member returns
      (show usedKeys.findByIdempotencyKey (.user 1) "charged" = some chargedRow by decide +kernel)
      (show usedKeys.findPaymentByTransaction 13 = some chargedPayment by decide +kernel)
      (show usedKeys.transactions.find? 13 = some chargedRow by decide +kernel) rfl (.inr (by decide))
    simp [chargedPayment] at asked

/-! ## All three -/

/-- In every history of the owner's operations, and whatever is committed meanwhile: a call answers
with what it was asked for when, and for transfers and payouts only when, what it can find under its
key was asked for in the same words. -/
theorem answers_as_asked (history : Set Db) (intact : ∀ db ∈ history, db.Intact) :
    (∀ generated userId input idempotencyKey,
      (∀ c, Returns (Db.During history) (fun transaction _ _ _ =>
          TransfersService.Asked history userId input idempotencyKey transaction)
        (TransfersService.transfer generated userId input idempotencyKey) [] id c) ↔
        TransfersService.FoundAsAsked history userId input idempotencyKey) ∧
    (∀ generated owner input idempotencyKey,
      (∀ c, Returns (Db.During history) (fun view _ _ _ =>
          PayoutsService.Asked owner input idempotencyKey view)
        (PayoutsService.request generated owner input idempotencyKey) [] id c) ↔
        PayoutsService.FoundAsAsked history owner input idempotencyKey) ∧
    (∀ generated outside owner input idempotencyKey,
      PaymentsService.FoundAsAsked history owner input idempotencyKey →
      ∀ c, Returns (Db.During history) (fun view _ _ _ =>
          PaymentsService.Asked owner input idempotencyKey view)
        (PaymentsService.initializePayment generated outside owner input idempotencyKey) [] id c) :=
  ⟨fun _ _ _ _ => TransfersService.returns_asked_iff,
    fun _ _ _ _ => PayoutsService.returns_asked_iff intact,
    fun _ _ _ _ _ found _ => PaymentsService.returns_asked intact found⟩

/-- The same transfer, asked for again under its key. -/
theorem answers_transfer_again : Returns (Db.During {usedKeys}) (fun transaction _ _ _ =>
    TransfersService.Asked {usedKeys} 1 ⟨"ben@example.com", 500, some "NGN", none⟩ "sent" transaction)
    (TransfersService.transfer ⟨fun _ => 99, 0⟩ 1 ⟨"ben@example.com", 500, some "NGN", none⟩ "sent")
    [] id usedKeys := by
  have intact : ∀ db ∈ ({usedKeys} : Set Db), db.Intact := by
    rintro db rfl
    exact usedKeys_intact
  refine ((answers_as_asked {usedKeys} intact).1 _ _ _ _).mpr ?_ usedKeys
  rintro db rfl existing found
  have same : usedKeys.findByIdempotencyKey (.user 1) "sent" = some sentRow := by decide +kernel
  obtain rfl : sentRow = existing := Option.some.inj (same.symm.trans found)
  exact ⟨rfl, rfl, rfl, rfl, ⟨usedKeys, rfl, 2, by decide +kernel, rfl⟩, ⟨usedKeys, rfl, rfl⟩⟩

end Finstack.Services
