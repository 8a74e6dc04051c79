import Finstack.Soundness.Services.Quiet
import Finstack.Soundness.Services.Rows

/-! # What a call records

What others leave of the rows of an operation, and the rows a call inserts: until it commits it sees
them as it made them, and from then on everybody does.
-/

namespace Finstack

open Foundation Txn Prog

/-! ## What others leave alone -/

/-- No row is deleted, and what is written over is in `same` as it was. -/
def Table.Kept {R K : Type} [Keyed R K] [DecidableEq K] (same : R → R → Prop) (t t' : Table R) : Prop :=
  ∀ k row, t.find? k = some row → ∃ row', t'.find? k = some row' ∧ same row row'

theorem Table.kept_modify {R K : Type} [Keyed R K] [DecidableEq K] {same : R → R → Prop} {t : Table R}
    {k : K} {change : R → R} (keeps : ∀ row, key (change row) = key row)
    (changed : ∀ row, same row (change row)) (refl : ∀ row, same row row) :
    Table.Kept same t (t.modify k change) := by
  intro k' row found
  by_cases own : k = k'
  · subst own
    refine ⟨change row, ?_, changed row⟩
    rw [Table.find?_modify_self keeps, found, Option.map_some]
  · exact ⟨row, (Table.find?_modify_ne keeps own).trans found, refl row⟩

/-- The columns of a transaction that say what was asked for; no statement of the services updates
one of them. -/
def Transaction.SameRequest (row row' : Transaction) : Prop :=
  row'.type = row.type ∧ row'.owner = row.owner ∧ row'.counterpartyUserId = row.counterpartyUserId ∧
    row'.amount = row.amount ∧ row'.currency = row.currency ∧ row'.idempotencyKey = row.idempotencyKey

def Payout.SameRequest (row row' : Payout) : Prop :=
  row'.transactionId = row.transactionId ∧ row'.destinationId = row.destinationId ∧
    row'.amount = row.amount

def Payment.SameRequest (row row' : Payment) : Prop :=
  row'.transactionId = row.transactionId ∧ row'.amount = row.amount ∧ row'.currency = row.currency

namespace Db

structure Keeps (c c' : Db) : Prop where
  transactions : Table.Kept Transaction.SameRequest c.transactions c'.transactions
  payments : Table.Kept Payment.SameRequest c.payments c'.payments
  payouts : Table.Kept Payout.SameRequest c.payouts c'.payouts

theorem Keeps.refl (db : Db) : db.Keeps db :=
  ⟨fun _ row found => ⟨row, found, rfl, rfl, rfl, rfl, rfl, rfl⟩,
    fun _ row found => ⟨row, found, rfl, rfl, rfl⟩, fun _ row found => ⟨row, found, rfl, rfl, rfl⟩⟩

theorem keeps_onLedger (change : Ledger → Ledger) (db : Db) : db.Keeps (db.onLedger change) :=
  ⟨(Keeps.refl db).transactions, (Keeps.refl db).payments, (Keeps.refl db).payouts⟩

theorem keeps_transition (id : Uuid) (patch : Requests.TransitionPatch) (status : TransactionStatus)
    (db : Db) : db.Keeps (db.onTransactions (·.modify id (patch.apply status))) where
  transactions := Table.kept_modify (fun _ => rfl) (fun _ => ⟨rfl, rfl, rfl, rfl, rfl, rfl⟩)
    fun _ => ⟨rfl, rfl, rfl, rfl, rfl, rfl⟩
  payments := (Keeps.refl db).payments
  payouts := (Keeps.refl db).payouts

theorem keeps_providerReference (id : Uuid) (reference : Option String) (db : Db) :
    db.Keeps (db.onPayments (·.modify id fun row => { row with providerReference := reference })) where
  transactions := (Keeps.refl db).transactions
  payments := Table.kept_modify (fun _ => rfl) (fun _ => ⟨rfl, rfl, rfl⟩) fun _ => ⟨rfl, rfl, rfl⟩
  payouts := (Keeps.refl db).payouts

/-- What the unique indexes and foreign keys promise of the rows of operations, and that a payment or
payout is committed together with its transaction, which says the same. -/
structure Intact (db : Db) : Prop where
  keys : ∀ row ∈ db.transactions, ∀ other ∈ db.transactions, row.owner = other.owner →
    row.idempotencyKey = other.idempotencyKey → row.idempotencyKey ≠ none → row = other
  payments : ∀ payment ∈ db.payments, ∃ row ∈ db.transactions, row.id = payment.transactionId ∧
    row.type = .payment ∧ row.amount = payment.amount ∧ row.currency = payment.currency
  payouts : ∀ payout ∈ db.payouts, ∃ row ∈ db.transactions, row.id = payout.transactionId ∧
    row.type = .withdrawal ∧ row.amount = payout.amount
  destinations : ∀ payout ∈ db.payouts, (db.destinations.find? payout.destinationId).isSome

theorem findByIdempotencyKey_some {db : Db} {owner : Owner} {idempotencyKey : String}
    {row : Transaction} (found : db.findByIdempotencyKey owner idempotencyKey = some row) :
    row ∈ db.transactions ∧ row.owner = owner ∧ row.idempotencyKey = some idempotencyKey := by
  refine ⟨List.mem_of_find?_eq_some found, ?_⟩
  simpa using List.find?_some found

/-- The key's row is the one the index has. -/
theorem Intact.findByIdempotencyKey {db : Db} (intact : db.Intact) {owner : Owner}
    {idempotencyKey : String} {row : Transaction} (member : row ∈ db.transactions)
    (mine : row.owner = owner) (given : row.idempotencyKey = some idempotencyKey) :
    db.findByIdempotencyKey owner idempotencyKey = some row := by
  cases found : db.findByIdempotencyKey owner idempotencyKey with
  | none =>
    have absent := List.find?_eq_none.mp found row member
    simp [mine, given] at absent
  | some other =>
    obtain ⟨there, same, key⟩ := findByIdempotencyKey_some found
    refine congrArg some (intact.keys other there row member (same.trans mine.symm)
      (key.trans given.symm) ?_)
    simp [key]

/-- What is found under a key is found under it later, too. -/
theorem Keeps.findByIdempotencyKey {db db' : Db} (keeps : db.Keeps db') (intact : db'.Intact)
    {owner : Owner} {idempotencyKey : String} {existing : Transaction}
    (found : db.findByIdempotencyKey owner idempotencyKey = some existing) :
    ∃ row, db'.transactions.find? existing.id = some row ∧ row.owner = owner ∧
      row.idempotencyKey = some idempotencyKey ∧
      db'.findByIdempotencyKey owner idempotencyKey = some row := by
  obtain ⟨member, mine, given⟩ := findByIdempotencyKey_some found
  obtain ⟨row, kept, -, owner', -, -, -, key'⟩ :=
    keeps.transactions existing.id existing (Table.find?_of_mem member)
  exact ⟨row, kept, owner'.trans mine, key'.trans given,
    intact.findByIdempotencyKey (Table.find?_some kept).1 (owner'.trans mine) (key'.trans given)⟩

/-- Others commit, and these are the states the database is in as a call runs. -/
def During (history : Set Db) (c c' : Db) : Prop := c' ∈ history ∧ c.Keeps c'

theorem During.mem {history : Set Db} {held : List RowLock} {c c' : Db}
    (meanwhile : Meanwhile (During history) held c c') : c' ∈ history := meanwhile.1.1

end Db

variable {others : Db → Db → Prop} {held : List RowLock} {pend : Db → Db} {c : Db}

/-! ## New rows -/

theorem guards_transaction (id : Uuid) : GuardsRow Db.transactions (RowLock.transaction id) id := by
  intro db db' same
  simpa only [Db.same_observed, Db.observe, Db.Observed.transaction.injEq] using same

theorem guards_payment (id : Uuid) : GuardsRow Db.payments (RowLock.payment id) id := by
  intro db db' same
  simpa only [Db.same_observed, Db.observe, Db.Observed.payment.injEq] using same

theorem guards_payout (id : Uuid) : GuardsRow Db.payouts (RowLock.payout id) id := by
  intro db db' same
  simpa only [Db.same_observed, Db.observe, Db.Observed.payout.injEq] using same

theorem covers_ownTransaction (id : Uuid) : Covers Db.transactions (RowLock.transaction id) := by
  intro db db' same
  rw [Db.same_observed, Db.observe, Db.observe, same]

theorem covers_transaction (id : Uuid) : Covers Db.records (RowLock.transaction id) := by
  intro db db' same
  rw [Db.same_observed, Db.observe, Db.observe, records_transactions same]

theorem covers_payment (id : Uuid) : Covers Db.records (RowLock.payment id) := by
  intro db db' same
  rw [Db.same_observed, Db.observe, Db.observe, records_payments same]

theorem covers_payout (id : Uuid) : Covers Db.records (RowLock.payout id) := by
  intro db db' same
  rw [Db.same_observed, Db.observe, Db.observe, records_payouts same]

/-- A transaction, a payment, a payout that the open database transaction has inserted. -/
abbrev Recorded (row : Transaction) := Inserted Db.transactions (RowLock.transaction row.id) row

abbrev RecordedPayment (row : Payment) := Inserted Db.payments (RowLock.payment row.id) row

abbrev RecordedPayout (row : Payout) := Inserted Db.payouts (RowLock.payout row.id) row

/-- An INSERT behind its checks. -/
theorem returns_insert {R : Type} [Keyed R Uuid] {table : Db → Table R} {l : RowLock} {row : R}
    {locks : List RowLock} {test : Db → Except DatabaseError Unit} {write : Db → Db}
    (clean : Clean table pend) (own : l ∈ locks)
    (unused : ∀ db, test db = .ok () → (table db).find? (key row) = none)
    (inserts : ∀ db, table (write db) = (table db).insert row) :
    Returns others (fun _ held' pend' c' => Inserted table l row held' pend' c' ∧
      pend' = write ∘ pend) (save locks test write) held pend c := by
  refine returns_statement.mpr fun c' _ a write' done => ?_
  obtain rfl := same_of_databaseCheck done
  have passed : test (pend c') = .ok () := by
    cases result : test (pend c') with
    | error e => simp [databaseCheck, result] at done
    | ok u => rfl
  refine ⟨⟨List.mem_append_left held own, ?_, fun db => ?_⟩, rfl⟩
  · exact (congrArg (·.find? (key row)) (clean c')).symm.trans (unused _ passed)
  · exact (inserts (pend db)).trans (congrArg (·.insert row) (clean db))

theorem quiet_save {γ : Type} {see : Db → γ} {locks : List RowLock}
    {test : Db → Except DatabaseError Unit} {write : Db → Db} (same : ∀ db, see (write db) = see db) :
    Quiet see (save locks test write) := by
  refine quiet_statement fun view a write' done db => ?_
  rw [same_of_databaseCheck done]
  exact same db

theorem unused_of_checkNewPayout {row : Payout} {db : Db} (passed : db.checkNewPayout row = .ok ()) :
    db.payouts.find? row.id = none := by
  unfold Db.checkNewPayout at passed
  split_ifs at passed with _ taken
  simpa using taken

theorem unused_of_checkNewPayment {row : Payment} {db : Db}
    (passed : db.checkNewPayment row = .ok ()) : db.payments.find? row.id = none := by
  cases found : db.payments.find? row.id with
  | none => rfl
  | some taken =>
    unfold Db.checkNewPayment at passed
    cases checked : Db.checkPayment row <;> simp [checked, found] at passed
    all_goals cases passed

theorem unused_of_checkNewTransaction {row : Transaction} {db : Db}
    (passed : db.checkNewTransaction row = .ok ()) : db.transactions.find? row.id = none := by
  cases found : db.transactions.find? row.id with
  | none => rfl
  | some taken =>
    unfold Db.checkNewTransaction at passed
    cases checked : Db.checkTransaction row <;> simp [checked, found] at passed
    all_goals cases passed

theorem returns_savePayout {row : Payout} (clean : Clean Db.payouts pend) :
    Returns others (fun _ held' pend' c' => RecordedPayout row held' pend' c' ∧
        Since Db.transactions held pend c held' pend' c')
      (save (Db.payoutLocks row) (Db.checkNewPayout row) (Db.onPayouts (·.insert row))) held pend c := by
  have inserts : ∀ db : Db, (db.onPayouts (·.insert row)).payouts = db.payouts.insert row :=
    fun _ => rfl
  have aside : ∀ db : Db, (db.onPayouts (·.insert row)).transactions = db.transactions := fun _ => rfl
  refine ((returns_insert clean (mem_payoutLocks row) (fun _ => unused_of_checkNewPayout) inserts).and
    (returns_quiet (quiet_save aside))).mono ?_
  rintro _ held' pend' c' ⟨⟨saved, -⟩, since⟩
  exact ⟨saved, since⟩

theorem returns_savePayment {row : Payment} (clean : Clean Db.payments pend) :
    Returns others (fun _ held' pend' c' => RecordedPayment row held' pend' c' ∧
        Since Db.transactions held pend c held' pend' c')
      (save (Db.paymentLocks row) (Db.checkNewPayment row) (Db.onPayments (·.insert row))) held pend c := by
  have inserts : ∀ db : Db, (db.onPayments (·.insert row)).payments = db.payments.insert row :=
    fun _ => rfl
  have aside : ∀ db : Db, (db.onPayments (·.insert row)).transactions = db.transactions := fun _ => rfl
  have own : RowLock.payment row.id ∈ Db.paymentLocks row := by simp [Db.paymentLocks]
  refine ((returns_insert clean own (fun _ => unused_of_checkNewPayment) inserts).and
    (returns_quiet (quiet_save aside))).mono ?_
  rintro _ held' pend' c' ⟨⟨saved, -⟩, since⟩
  exact ⟨saved, since⟩

namespace Services

/-- The rows of payments and payouts. -/
def ofRecords (db : Db) : Table Payment × Table Payout := (db.payments, db.payouts)

theorem returns_create {id : Uuid} {random : Nat} {input : TransactionsService.NewTransaction}
    (clean : Clean Db.records pend) :
    Returns others (fun row held' pend' c' => Recorded row held' pend' c' ∧
      Clean ofRecords pend' ∧ ∃ now, row = TransactionsService.newTransaction id random now input)
      (TransactionsService.create id random input) held pend c := by
  refine returns_bind (returns_query.mpr fun c₁ _ => ?_)
  have transactions : Clean Db.transactions pend := fun db => records_transactions (clean db)
  refine returns_bind ((returns_insert transactions (row_mem_transactionLocks _)
    (fun _ => unused_of_checkNewTransaction) fun _ => rfl).mono ?_)
  rintro _ held' pend' c' ⟨inserted, rfl⟩
  exact returns_pure.mpr ⟨inserted, fun db => congrArg (·.2) (clean db), _, rfl⟩

/-- The transaction that has inserted the row sees what it makes of it. -/
theorem returns_transition {row : Transaction} {status : TransactionStatus} {patch : Requests.TransitionPatch}
    (inserted : Recorded row held pend c) :
    Returns others (fun completed _ _ _ => completed = patch.apply status row)
      (TransactionsService.transition row.id status patch) held pend c := by
  have guards := guards_transaction row.id
  refine returns_bind (returns_bind (returns_select.mpr fun c₁ meanwhile => ?_))
  have first := inserted.later guards meanwhile
  rw [show (pend c₁).transactions.find? row.id = some row from first.found]
  refine returns_pure.mpr (returns_bind (returns_ret.mpr fun _ _ => ?_))
  refine returns_bind (returns_statement.mpr fun c₂ meanwhile _ write done => ?_)
  have second := first.more.later guards meanwhile
  obtain rfl := same_of_databaseCheck done
  refine returns_bind (returns_query.mpr fun c₃ meanwhile => ?_)
  have third := second.more.later guards meanwhile
  have found : (Db.onTransactions (·.modify row.id (patch.apply status)) (pend c₃)).transactions.find?
      row.id = some (patch.apply status row) := by
    have byId : ∀ other : Transaction, key (patch.apply status other) = key other := fun _ => rfl
    refine (Table.find?_modify_self byId).trans ?_
    exact congrArg (Option.map (patch.apply status)) third.found
  rw [Function.comp_apply, found]
  exact returns_pure.mpr rfl

/-! ## What a failed checkout leaves -/

section Preserves

variable {K : Db → Prop} (stays : ∀ c c', c.Keeps c' → K c → K c')

include stays

theorem preserves_deferredConstraints : Preserves K deferredConstraints := by
  refine preserves_statement fun view a write done db here => ?_
  rw [same_of_databaseCheck done]
  exact stays _ _ (Db.keeps_onLedger _ db) here

theorem preserves_transition (id : Uuid) (status : TransactionStatus)
    (patch : Requests.TransitionPatch) :
    Preserves K (TransactionsService.transition id status patch) := by
  refine preserves_bind (preserves_bind preserves_select fun found => ?_) fun _ =>
    preserves_bind preserves_ret fun _ => preserves_bind ?_ fun _ =>
      preserves_bind preserves_query fun found => ?_
  · cases found <;> trivial
  · refine preserves_statement fun view a write done db here => ?_
    rw [same_of_databaseCheck done]
    exact stays _ _ (Db.keeps_transition id patch status db) here
  · cases found <;> trivial

theorem preserves_setProviderReference (id : Uuid) (reference : String) :
    Preserves K (PaymentsService.setProviderReference id reference) := by
  refine preserves_separately fun view a write done db here => ?_
  rw [same_of_databaseCheck done]
  exact stays _ _ (Db.keeps_providerReference id (some reference) db) here

theorem preserves_onProviderError (payment : Payment) (thrown : PaymentProviders.Thrown) :
    Preserves K (PaymentsService.onProviderError payment thrown) := by
  unfold PaymentsService.onProviderError
  split_ifs
  · exact preserves_transaction (preserves_deferredConstraints stays)
      (preserves_bind (preserves_transition stays _ _ _) fun _ => preserves_pure)
  · exact preserves_throw

end Preserves

end Services

end Finstack
