import Finstack.Soundness.Books.Discipline

/-! # What single writes leave of the books

Each statement of a transaction that has passed its check, and what it keeps of the rows and accounts.
-/

namespace Finstack

open Foundation Discipline Services LedgerService

/-! ## Writes behind a check -/

def Saved (test : Db → Except DatabaseError Unit) (write : Db → Db) (m b : Db) : Prop :=
  test m = .ok () ∧ b = write m

abbrev Created (row : Transaction) : Db → Db → Prop :=
  Saved (Db.checkNewTransaction row) (Db.onTransactions (·.insert row))

abbrev Transitioned (id : Uuid) (status : TransactionStatus) (patch : Requests.TransitionPatch) :
    Db → Db → Prop :=
  Saved (Db.checkTransition id (patch.apply status))
    (Db.onTransactions (·.modify id (patch.apply status)))

abbrev PaymentChanged (id : Uuid) (change : Payment → Payment) : Db → Db → Prop :=
  Saved (fun db => Db.checkUpdate Db.checkPayment change (db.payments.find? id))
    (Db.onPayments (·.modify id change))

abbrev RefundFiled (refund : Refund) : Db → Db → Prop :=
  Saved (Db.checkNewRefund refund) (Db.onRefunds (·.insert refund))

abbrev PayoutFiled (payout : Payout) : Db → Db → Prop :=
  Saved (Db.checkNewPayout payout) (Db.onPayouts (·.insert payout))

namespace Db

theorem checkNewTransaction_ok {row : Transaction} {m : Db}
    (passed : m.checkNewTransaction row = .ok ()) :
    m.transactions.find? row.id = none ∧ m.findTransactionByReference row.reference = none := by
  refine ⟨unused_of_checkNewTransaction passed, ?_⟩
  cases found : m.findTransactionByReference row.reference with
  | none => rfl
  | some taken =>
    unfold checkNewTransaction at passed
    cases checked : checkTransaction row <;> simp [checked, found] at passed
    all_goals split_ifs at passed <;> cases passed

theorem checkNewRefund_ok {row : Refund} {m : Db} (passed : m.checkNewRefund row = .ok ()) :
    0 < row.amount ∧ 0 < row.walletDebitAmount ∧ m.refunds.find? row.id = none ∧
      m.findRefundByReference row.reference = none := by
  unfold checkNewRefund at passed
  cases checked : checkRefund row with
  | error e => simp [checked] at passed; cases passed
  | ok u =>
    have amounts : 0 < row.amount ∧ 0 < row.walletDebitAmount := by
      unfold checkRefund at checked
      split_ifs at checked with small
      exact ⟨by omega, by omega⟩
    refine ⟨amounts.1, amounts.2, ?_⟩
    cases found : m.refunds.find? row.id with
    | some taken => simp [checked, found] at passed; cases passed
    | none =>
      refine ⟨rfl, ?_⟩
      cases named : m.findRefundByReference row.reference with
      | none => rfl
      | some taken => simp [checked, found, named] at passed; cases passed

theorem checkNewPayout_ok {row : Payout} {m : Db} (passed : m.checkNewPayout row = .ok ()) :
    0 < row.amount ∧ m.payouts.find? row.id = none ∧
      m.findPayoutByReference row.reference = none := by
  unfold checkNewPayout at passed
  split_ifs at passed with amount id reference
  exact ⟨by omega, by simpa using id, by simpa using reference⟩

/-- The statuses a transition has gone between. -/
theorem checkTransition_ok {id : Uuid} {status : TransactionStatus}
    {patch : Requests.TransitionPatch} {m : Db} {row : Transaction}
    (passed : m.checkTransition id (patch.apply status) = .ok ())
    (found : m.transactions.find? id = some row) : row.status.Later status := by
  unfold checkTransition at passed
  rw [found] at passed
  dsimp only at passed
  split_ifs at passed with refused
  have same : (patch.apply status row).status = status := rfl
  rw [same] at refused
  by_cases stays : status = row.status
  · rw [stays]
  · exact .single (by simpa [stays] using refused)

end Db

/-! ## Progress -/

section Kept

variable {R K : Type} [Keyed R K] [DecidableEq K] {same : R → R → Prop} {s t u : Table R}

theorem Table.Kept.trans (transitive : ∀ {a b c}, same a b → same b c → same a c)
    (first : Table.Kept same s t) (second : Table.Kept same t u) : Table.Kept same s u := by
  intro k row found
  obtain ⟨row', found', one⟩ := first k row found
  obtain ⟨row'', found'', two⟩ := second k row' found'
  exact ⟨row'', found'', transitive one two⟩

theorem Table.kept_insert (refl : ∀ row, same row row) (t : Table R) (row : R) :
    Table.Kept same t (t.insert row) :=
  fun _ old found => ⟨old, Table.find?_insert_of_some found, refl old⟩

end Kept

theorem Wallet.Continues.refl (row : Wallet) : row.Continues row := ⟨rfl, fun _ => rfl⟩

theorem Transaction.Continues.refl (row : Transaction) : row.Continues row := ⟨rfl, rfl, rfl, .refl⟩

theorem Payment.Continues.refl (row : Payment) : row.Continues row := ⟨rfl, rfl, rfl, rfl, rfl⟩

theorem Payment.Continues.trans {row row' row'' : Payment} (one : row.Continues row')
    (two : row'.Continues row'') : row.Continues row'' :=
  ⟨two.1.trans one.1, two.2.1.trans one.2.1, two.2.2.1.trans one.2.2.1,
    two.2.2.2.1.trans one.2.2.2.1, two.2.2.2.2.trans one.2.2.2.2⟩

theorem Refund.Continues.refl (row : Refund) : row.Continues row := rfl

theorem Payout.Continues.refl (row : Payout) : row.Continues row := rfl

namespace Db

variable {c m b : Db}

namespace Progress

theorem refl (db : Db) : db.Progress db where
  clock := le_rfl
  wallets := kept_refl _ Wallet.Continues.refl
  codes := kept_refl _ fun _ => rfl
  transactions := kept_refl _ Transaction.Continues.refl
  payments := kept_refl _ Payment.Continues.refl
  refunds := kept_refl _ Refund.Continues.refl
  payouts := kept_refl _ Payout.Continues.refl
  postings found := found

theorem trans (first : c.Progress m) (second : m.Progress b) : c.Progress b where
  clock := first.clock.trans second.clock
  wallets := first.wallets.trans (fun one two =>
    ⟨two.1.trans one.1, fun balance => (two.2 balance).trans (one.2 balance)⟩) second.wallets
  codes := first.codes.trans (fun one two => two.trans one) second.codes
  transactions := first.transactions.trans (fun one two =>
    ⟨two.reference.trans one.reference, two.type.trans one.type,
      two.feeAmount.trans one.feeAmount, one.status.trans two.status⟩) second.transactions
  payments := first.payments.trans Payment.Continues.trans second.payments
  refunds := first.refunds.trans (fun one two => by
    rw [Refund.Continues] at one two ⊢
    rw [two, one]) second.refunds
  payouts := first.payouts.trans (fun one two => by
    rw [Payout.Continues] at one two ⊢
    rw [two, one]) second.payouts
  postings found := second.postings (first.postings found)

theorem posted {id : Uuid} {input : PostingInput} {amount : Int} (posts : Posts id input amount m b) :
    m.Progress b := by
  obtain ⟨-, rfl⟩ := posts
  refine { refl m with codes := fun k account found => ?_, postings := fun {k t} found => ?_ }
  · refine ⟨account.credited (delta account input.entries), ?_, rfl⟩
    rw [onLedger, posted_account, found, Option.map_some]
  · rw [onLedger, posted_transaction, found, Option.some_or]

theorem created {row : Transaction} (created : Created row m b) : m.Progress b := by
  obtain ⟨-, rfl⟩ := created
  exact { refl m with transactions := Table.kept_insert Transaction.Continues.refl _ row }

theorem transitioned {id : Uuid} {status : TransactionStatus} {patch : Requests.TransitionPatch}
    (moved : Transitioned id status patch m b) : m.Progress b := by
  obtain ⟨passed, rfl⟩ := moved
  refine { refl m with transactions := fun k row found => ?_ }
  have keeps : ∀ row : Transaction, key (patch.apply status row) = key row := fun _ => rfl
  by_cases own : id = k
  · subst own
    refine ⟨patch.apply status row, ?_, rfl, rfl, rfl, checkTransition_ok passed found⟩
    rw [onTransactions, Table.find?_modify_self keeps, found, Option.map_some]
  · exact ⟨row, (Table.find?_modify_ne keeps own).trans found, .refl row⟩

theorem paymentChanged {id : Uuid} {change : Payment → Payment}
    (keeps : ∀ row, key (change row) = key row) (same : ∀ row, Payment.Continues row (change row))
    (changed : PaymentChanged id change m b) : m.Progress b := by
  obtain ⟨-, rfl⟩ := changed
  exact { refl m with payments := Table.kept_modify keeps same Payment.Continues.refl }

theorem refundFiled {refund : Refund} (filed : RefundFiled refund m b) : m.Progress b := by
  obtain ⟨-, rfl⟩ := filed
  exact { refl m with refunds := Table.kept_insert Refund.Continues.refl _ refund }

theorem payoutFiled {payout : Payout} (filed : PayoutFiled payout m b) : m.Progress b := by
  obtain ⟨-, rfl⟩ := filed
  exact { refl m with payouts := Table.kept_insert Payout.Continues.refl _ payout }

theorem told (event : OutboxEvent) (m : Db) : m.Progress (m.addEvent event) := { refl m with }

theorem cleared (m : Db) : m.Progress (m.onLedger Ledger.clearDeferred) := { refl m with }

end Progress

/-! ## Links -/

/-- Only these tables matter to the links. -/
theorem Linked.congr (linked : m.Linked) (wallets : b.wallets = m.wallets)
    (transactions : b.transactions = m.transactions) (payments : b.payments = m.payments)
    (refunds : b.refunds = m.refunds) (payouts : b.payouts = m.payouts) : b.Linked := by
  have status : b.statusOf = m.statusOf := by
    funext id
    rw [statusOf, statusOf, transactions]
  have fee : b.feeOf = m.feeOf := by
    funext id
    rw [feeOf, feeOf, transactions]
  constructor <;> simp only [wallets, transactions, payments, refunds, payouts, status, fee]
  · exact ⟨transactions ▸ linked.payments.stored, linked.payments.own⟩
  · exact ⟨transactions ▸ linked.refunds.stored, linked.refunds.own⟩
  · exact ⟨transactions ▸ linked.payouts.stored, linked.payouts.own⟩
  · exact linked.transactionNames
  · exact linked.refundNames
  · exact linked.payoutNames
  · exact linked.credited
  · exact linked.refunding
  · exact linked.payingOut
  · exact linked.refundStatus
  · exact linked.payoutStatus

theorem statusOf_created {row : Transaction} (created : Created row m b) {id : Uuid}
    {old : Transaction} (found : m.transactions.find? id = some old) :
    b.statusOf id = m.statusOf id ∧ b.feeOf id = m.feeOf id := by
  obtain ⟨-, rfl⟩ := created
  have kept : (m.onTransactions (·.insert row)).transactions.find? id = some old :=
    Table.find?_insert_of_some found
  rw [statusOf, statusOf, feeOf, feeOf, kept, found]
  exact ⟨rfl, rfl⟩

theorem find?_transitioned {id : Uuid} {status : TransactionStatus}
    {patch : Requests.TransitionPatch} (moved : Transitioned id status patch m b) (k : Uuid) :
    b.transactions.find? k = if id = k then (m.transactions.find? k).map (patch.apply status)
      else m.transactions.find? k := by
  obtain ⟨-, rfl⟩ := moved
  have keeps : ∀ row : Transaction, key (patch.apply status row) = key row := fun _ => rfl
  exact Table.find?_modify keeps

theorem feeOf_transitioned {id : Uuid} {status : TransactionStatus}
    {patch : Requests.TransitionPatch} (moved : Transitioned id status patch m b) (k : Uuid) :
    b.feeOf k = m.feeOf k := by
  rw [feeOf, feeOf, find?_transitioned moved]
  split_ifs with own
  · cases m.transactions.find? k <;> rfl
  · rfl

theorem statusOf_transitioned {id : Uuid} {status : TransactionStatus}
    {patch : Requests.TransitionPatch} (moved : Transitioned id status patch m b) (k : Uuid) :
    b.statusOf k = if id = k then (m.statusOf k).map fun _ => status else m.statusOf k := by
  rw [statusOf, statusOf, find?_transitioned moved]
  split_ifs with own
  · cases m.transactions.find? k <;> rfl
  · rfl

end Db

section Files

variable {R : Type} [Keyed R Uuid] {m b : Db} {t t' : Table R} {transactionId : R → Uuid}
  {type : TransactionType}

/-- Transactions keep their type. -/
theorem Files.progress (files : Files m t transactionId type) (progress : m.Progress b) :
    Files b t transactionId type where
  stored row member := by
    obtain ⟨old, found, same⟩ := files.stored row member
    obtain ⟨new, found', continues⟩ := progress.transactions _ old found
    exact ⟨new, found', continues.type.trans same⟩
  own := files.own

theorem Files.insert {row : R} (files : Files m t transactionId type)
    (absent : t.find? (key row) = none) {transaction : Transaction}
    (found : m.transactions.find? (transactionId row) = some transaction)
    (mine : transaction.type = type)
    (fresh : ∀ other ∈ t, transactionId other ≠ transactionId row) :
    Files m (t.insert row) transactionId type where
  stored other member := by
    rcases (Table.mem_insert absent).mp member with old | rfl
    · exact files.stored other old
    · exact ⟨transaction, found, mine⟩
  own first left second right same := by
    rcases (Table.mem_insert absent).mp left with old | rfl <;>
      rcases (Table.mem_insert absent).mp right with old' | rfl
    · exact files.own first old second old' same
    · exact (fresh first old same).elim
    · exact (fresh second old' same.symm).elim
    · rfl

theorem Named.insert {row : R} {name : R → String} (named : Named t name)
    (absent : t.find? (key row) = none) (plain : Colonless (name row))
    (fresh : ∀ other ∈ t, name other ≠ name row) : Named (t.insert row) name where
  plain other member := by
    rcases (Table.mem_insert absent).mp member with old | rfl
    · exact named.plain other old
    · exact plain
  unique first left second right same := by
    rcases (Table.mem_insert absent).mp left with old | rfl <;>
      rcases (Table.mem_insert absent).mp right with old' | rfl
    · exact named.unique first old second old' same
    · exact (fresh first old same).elim
    · exact (fresh second old' same.symm).elim
    · rfl

/-- Where each row of an updated table comes from. -/
theorem Table.origin {k : Uuid} {change : R → R} (keeps : ∀ row, key (change row) = key row) :
    ∀ row ∈ t.modify k change, ∃ old ∈ t, key old = key row ∧
      (row = old ∨ row = change old ∧ t.find? k = some old) := by
  refine Table.forall_mem_modify keeps (fun row member => ⟨row, member, rfl, .inl rfl⟩) ?_
  rintro row member rfl
  exact ⟨row, member, (keeps row).symm, .inr ⟨rfl, Table.find?_of_mem member⟩⟩

theorem Files.modify {k : Uuid} {change : R → R} (files : Files m t transactionId type)
    (keeps : ∀ row, key (change row) = key row)
    (same : ∀ row, transactionId (change row) = transactionId row) :
    Files m (t.modify k change) transactionId type := by
  have origin : ∀ row ∈ t.modify k change, ∃ old ∈ t, key old = key row ∧
      transactionId old = transactionId row := by
    intro row member
    obtain ⟨old, there, own, rfl | ⟨rfl, -⟩⟩ := Table.origin keeps row member
    · exact ⟨row, there, rfl, rfl⟩
    · exact ⟨old, there, own, (same old).symm⟩
  constructor
  · intro row member
    obtain ⟨old, there, -, its⟩ := origin row member
    exact its ▸ files.stored old there
  · intro row member other member' shared
    obtain ⟨old, there, own, its⟩ := origin row member
    obtain ⟨old', there', own', its'⟩ := origin other member'
    obtain rfl := files.own old there old' there' (its.trans (shared.trans its'.symm))
    exact Table.eq_of_key member member' (own.symm.trans own')

theorem Named.modify {k : Uuid} {change : R → R} {name : R → String} (named : Named t name)
    (keeps : ∀ row, key (change row) = key row) (same : ∀ row, name (change row) = name row) :
    Named (t.modify k change) name := by
  have origin : ∀ row ∈ t.modify k change, ∃ old ∈ t, key old = key row ∧ name old = name row := by
    intro row member
    obtain ⟨old, there, own, rfl | ⟨rfl, -⟩⟩ := Table.origin keeps row member
    · exact ⟨row, there, rfl, rfl⟩
    · exact ⟨old, there, own, (same old).symm⟩
  constructor
  · intro row member
    obtain ⟨old, there, -, its⟩ := origin row member
    exact its ▸ named.plain old there
  · intro row member other member' shared
    obtain ⟨old, there, own, its⟩ := origin row member
    obtain ⟨old', there', own', its'⟩ := origin other member'
    obtain rfl := named.unique old there old' there' (its.trans (shared.trans its'.symm))
    exact Table.eq_of_key member member' (own.symm.trans own')

end Files

namespace Db.Linked

variable {m b : Db}

theorem created {row : Transaction} (linked : m.Linked) (plain : Colonless row.reference)
    (created : Created row m b) : b.Linked := by
  have progress := Progress.created created
  have old : ∀ {R : Type} [Keyed R Uuid] {t : Table R} {transactionId : R → Uuid}
      {type : TransactionType}, Files m t transactionId type → ∀ r ∈ t,
      b.statusOf (transactionId r) = m.statusOf (transactionId r) ∧
        b.feeOf (transactionId r) = m.feeOf (transactionId r) := by
    intro R _ t transactionId type files r member
    obtain ⟨_, found, -⟩ := files.stored r member
    exact statusOf_created created found
  obtain ⟨passed, rfl⟩ := created
  obtain ⟨absent, unnamed⟩ := checkNewTransaction_ok passed
  refine ⟨linked.payments.progress progress, linked.refunds.progress progress,
    linked.payouts.progress progress, linked.transactionNames.insert absent plain ?_,
    linked.refundNames, linked.payoutNames, fun payment member => ?_, linked.refunding,
    fun payout member => ?_, fun refund member => ?_, fun payout member => ?_⟩
  · intro other member same
    have unused := List.find?_eq_none.mp unnamed other member
    simp [same] at unused
  · rw [(old linked.payments payment member).2]
    exact linked.credited payment member
  · rw [(old linked.payouts payout member).2]
    exact linked.payingOut payout member
  · rw [(old linked.refunds refund member).1]
    exact linked.refundStatus refund member
  · rw [(old linked.payouts payout member).1]
    exact linked.payoutStatus payout member

/-- What the statuses of a transaction of this type can be. -/
def Fits (type : TransactionType) (status : TransactionStatus) : Prop :=
  (type = .refund → status = .processing ∨ status = .successful ∨ status = .failed) ∧
    (type = .withdrawal →
      status = .processing ∨ status = .successful ∨ status = .failed ∨ status = .reversed)

theorem transitioned {id : Uuid} {status : TransactionStatus} {patch : Requests.TransitionPatch}
    (linked : m.Linked) (moved : Transitioned id status patch m b) {row : Transaction}
    (found : m.transactions.find? id = some row) (fits : Fits row.type status) : b.Linked := by
  have progress := Progress.transitioned moved
  have statusOf := statusOf_transitioned moved
  have feeOf := feeOf_transitioned moved
  obtain ⟨-, rfl⟩ := moved
  refine ⟨linked.payments.progress progress, linked.refunds.progress progress,
    linked.payouts.progress progress, linked.transactionNames.modify (fun _ => rfl) fun _ => rfl,
    linked.refundNames, linked.payoutNames, fun payment member => ?_, linked.refunding,
    fun payout member => ?_, fun refund member new after => ?_, fun payout member new after => ?_⟩
  · rw [feeOf]
    exact linked.credited payment member
  · rw [feeOf]
    exact linked.payingOut payout member
  · rw [statusOf] at after
    split_ifs at after with own
    · obtain ⟨_, -, rfl⟩ := Option.map_eq_some_iff.mp after
      obtain ⟨its, there, type⟩ := linked.refunds.stored refund member
      rw [← own, found] at there
      obtain rfl := Option.some.inj there
      exact fits.1 type
    · exact linked.refundStatus refund member new after
  · rw [statusOf] at after
    split_ifs at after with own
    · obtain ⟨_, -, rfl⟩ := Option.map_eq_some_iff.mp after
      obtain ⟨its, there, type⟩ := linked.payouts.stored payout member
      rw [← own, found] at there
      obtain rfl := Option.some.inj there
      exact fits.2 type
    · exact linked.payoutStatus payout member new after

theorem paymentChanged {id : Uuid} {change : Payment → Payment} (linked : m.Linked)
    (keeps : ∀ row, key (change row) = key row) (same : ∀ row, Payment.Continues row (change row))
    (changed : PaymentChanged id change m b) : b.Linked := by
  obtain ⟨passed, rfl⟩ := changed
  have origin : ∀ payment ∈ m.payments.modify id change, ∃ old ∈ m.payments, old.id = payment.id ∧
      old.Continues payment ∧ 0 ≤ payment.pendingAmount := by
    intro payment member
    obtain ⟨old, there, own, rfl | ⟨rfl, found⟩⟩ := Table.origin keeps payment member
    · exact ⟨payment, there, rfl, .refl payment, (linked.credited payment there).2.1⟩
    · refine ⟨old, there, own, same old, ?_⟩
      simp only [found, checkUpdate, checkPayment] at passed
      split_ifs at passed with negative
      omega
  refine ⟨?_, ⟨linked.refunds.stored, linked.refunds.own⟩,
    ⟨linked.payouts.stored, linked.payouts.own⟩, linked.transactionNames, linked.refundNames,
    linked.payoutNames, fun payment member => ?_, fun refund member => ?_, linked.payingOut,
    linked.refundStatus, linked.payoutStatus⟩
  · have files := linked.payments.modify (k := id) keeps fun row => (same row).1
    exact ⟨files.stored, files.own⟩
  · obtain ⟨old, there, -, ⟨transactionId, -, walletId, amount, -⟩, nonneg⟩ := origin payment member
    obtain ⟨positive, -, wallet, fee⟩ := linked.credited old there
    refine ⟨amount ▸ positive, nonneg, walletId ▸ wallet, ?_⟩
    rw [transactionId]
    exact fee
  · obtain ⟨a, b, d, e, payment, there, its, wallet⟩ := linked.refunding refund member
    refine ⟨a, b, d, e, ?_⟩
    obtain ⟨payment', found', -, -, walletId, -⟩ :=
      Table.kept_modify (k := id) keeps same Payment.Continues.refl payment.id payment
        (Table.find?_of_mem there)
    obtain ⟨there', own'⟩ := Table.find?_some found'
    exact ⟨payment', there', own'.trans its, walletId.trans wallet⟩

theorem refundFiled {refund : Refund} (linked : m.Linked) (filed : RefundFiled refund m b)
    {transaction : Transaction}
    (found : m.transactions.find? refund.transactionId = some transaction)
    (type : transaction.type = .refund) (processing : transaction.status = .processing)
    (fresh : ∀ other ∈ m.refunds, other.transactionId ≠ refund.transactionId)
    (plain : Colonless refund.reference)
    (hold : 0 ≤ refund.pendingHoldAmount ∧ refund.pendingHoldAmount ≤ refund.walletDebitAmount)
    (its : ∃ payment ∈ m.payments, payment.id = refund.paymentId ∧
      payment.walletId = refund.walletId) : b.Linked := by
  obtain ⟨passed, rfl⟩ := filed
  obtain ⟨amount, debit, absent, unnamed⟩ := checkNewRefund_ok passed
  have members : ∀ other ∈ m.refunds.insert refund, other ∈ m.refunds ∨ other = refund :=
    fun other => (Table.mem_insert absent).mp
  have files := linked.refunds.insert absent found type fresh
  refine ⟨⟨linked.payments.stored, linked.payments.own⟩, ⟨files.stored, files.own⟩,
    ⟨linked.payouts.stored, linked.payouts.own⟩, linked.transactionNames,
    linked.refundNames.insert absent plain ?_, linked.payoutNames, linked.credited,
    fun other member => ?_, linked.payingOut, fun other member status after => ?_,
    linked.payoutStatus⟩
  · intro other member same
    have unused := List.find?_eq_none.mp unnamed other member
    simp [same] at unused
  · rcases members other member with old | rfl
    · exact linked.refunding other old
    · exact ⟨amount, debit, hold.1, hold.2, its⟩
  · rcases members other member with old | rfl
    · exact linked.refundStatus other old status after
    · have here : m.statusOf other.transactionId = some .processing := by
        rw [statusOf_of_find? found, processing]
      exact .inl (Option.some.inj (after.symm.trans here))

theorem payoutFiled {payout : Payout} (linked : m.Linked) (filed : PayoutFiled payout m b)
    {transaction : Transaction}
    (found : m.transactions.find? payout.transactionId = some transaction)
    (type : transaction.type = .withdrawal) (processing : transaction.status = .processing)
    (fee : 0 ≤ transaction.feeAmount)
    (fresh : ∀ other ∈ m.payouts, other.transactionId ≠ payout.transactionId)
    (plain : Colonless payout.reference)
    (its : ∃ wallet ∈ m.wallets, wallet.id = payout.walletId ∧
      wallet.currency = payout.currency) : b.Linked := by
  obtain ⟨passed, rfl⟩ := filed
  obtain ⟨amount, absent, unnamed⟩ := checkNewPayout_ok passed
  have members : ∀ other ∈ m.payouts.insert payout, other ∈ m.payouts ∨ other = payout :=
    fun other => (Table.mem_insert absent).mp
  have files := linked.payouts.insert absent found type fresh
  refine ⟨⟨linked.payments.stored, linked.payments.own⟩,
    ⟨linked.refunds.stored, linked.refunds.own⟩, ⟨files.stored, files.own⟩,
    linked.transactionNames, linked.refundNames, linked.payoutNames.insert absent plain ?_,
    linked.credited, linked.refunding, fun other member => ?_, linked.refundStatus,
    fun other member status after => ?_⟩
  · intro other member same
    have unused := List.find?_eq_none.mp unnamed other member
    simp [same] at unused
  · rcases members other member with old | rfl
    · exact linked.payingOut other old
    · have here : m.feeOf other.transactionId = transaction.feeAmount := by
        rw [feeOf, found, Option.elim_some]
      exact ⟨amount, here ▸ fee, its⟩
  · rcases members other member with old | rfl
    · exact linked.payoutStatus other old status after
    · have here : m.statusOf other.transactionId = some .processing := by
        rw [statusOf_of_find? found, processing]
      exact .inl (Option.some.inj (after.symm.trans here))

end Db.Linked

end Finstack
