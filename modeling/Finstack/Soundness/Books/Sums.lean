import Finstack.Soundness.Books.Writes

/-! # What writes do to the sums

What is pending, held and refunded, after each kind of write to the rows.
-/

namespace Finstack

open Foundation Services

variable {m b : Db}

/-! ## Rows with a transaction -/

section Files

variable {R : Type} [Keyed R Uuid] {t : Table R} {transactionId : R → Uuid} {type : TransactionType}
  {worth : Db → R → Int}

/-- What a row adds is told by its transaction's status and fee. -/
def Follows (transactionId : R → Uuid) (worth : Db → R → Int) : Prop :=
  ∀ {db db' : Db} {row : R}, db.statusOf (transactionId row) = db'.statusOf (transactionId row) →
    db.feeOf (transactionId row) = db'.feeOf (transactionId row) → worth db row = worth db' row

theorem Files.apart {R' : Type} [Keyed R' Uuid] {t' : Table R'} {transactionId' : R' → Uuid}
    {type' : TransactionType} (files : Files m t transactionId type)
    (files' : Files m t' transactionId' type') (other : type ≠ type') :
    ∀ row ∈ t, ∀ row' ∈ t', transactionId row ≠ transactionId' row' := by
  intro row member row' member' same
  obtain ⟨_, found, rfl⟩ := files.stored row member
  obtain ⟨_, found', rfl⟩ := files'.stored row' member'
  rw [same, found'] at found
  exact other (congrArg _ (Option.some.inj found).symm)

/-- A new transaction is nobody's yet. -/
theorem Files.sum_created {row : Transaction} (files : Files m t transactionId type)
    (follows : Follows transactionId worth) (created : Created row m b) :
    t.sum (worth b) = t.sum (worth m) := by
  refine Table.sum_congr fun r member => ?_
  obtain ⟨_, found, -⟩ := files.stored r member
  obtain ⟨status, fee⟩ := Db.statusOf_created created found
  exact follows status fee

variable {id : Uuid} {status : TransactionStatus} {patch : Requests.TransitionPatch}

/-- The transaction of another kind of row. -/
theorem Files.sum_transitioned_other (follows : Follows transactionId worth)
    (moved : Transitioned id status patch m b) (others : ∀ r ∈ t, transactionId r ≠ id) :
    t.sum (worth b) = t.sum (worth m) := by
  refine Table.sum_congr fun r member => follows ?_ (Db.feeOf_transitioned moved _)
  rw [Db.statusOf_transitioned moved, if_neg (others r member).symm]

/-- The transaction of one row. -/
theorem Files.sum_transitioned (files : Files m t transactionId type)
    (follows : Follows transactionId worth) (moved : Transitioned id status patch m b) {row : R}
    (member : row ∈ t) (own : transactionId row = id) :
    t.sum (worth b) = t.sum (worth m) + (worth b row - worth m row) := by
  refine Table.sum_differ_row member fun r there other => follows ?_ (Db.feeOf_transitioned moved _)
  rw [Db.statusOf_transitioned moved, if_neg]
  rintro rfl
  exact other (files.own r there row member own.symm)

end Files

theorem follows_refundHold (walletId : Uuid) :
    Follows Refund.transactionId fun db => db.refundHold walletId := by
  intro db db' row status _
  simp only [Db.refundHold, status]

theorem follows_payoutHold (walletId : Uuid) :
    Follows Payout.transactionId fun db => db.payoutHold walletId := by
  intro db db' row status fee
  simp only [Db.payoutHold, status, fee]

theorem follows_refunded (statuses : List TransactionStatus) (paymentId : Uuid) :
    Follows Refund.transactionId fun db => db.refunded statuses paymentId := by
  intro db db' row status _
  simp only [Db.refunded, status]

namespace Db

/-- The sums over rows with a transaction. -/
structure SameSums (m b : Db) : Prop where
  held : ∀ walletId, b.heldOf walletId = m.heldOf walletId
  totals : ∀ statuses paymentId, RefundsService.totalOf statuses paymentId b =
    RefundsService.totalOf statuses paymentId m

namespace SameSums

theorem refl (db : Db) : db.SameSums db := ⟨fun _ => rfl, fun _ _ => rfl⟩

theorem trans {c : Db} (first : c.SameSums m) (second : m.SameSums b) : c.SameSums b where
  held walletId := (second.held walletId).trans (first.held walletId)
  totals statuses paymentId := (second.totals statuses paymentId).trans (first.totals statuses paymentId)

/-- Only these tables matter. -/
theorem congr (transactions : b.transactions = m.transactions) (refunds : b.refunds = m.refunds)
    (payouts : b.payouts = m.payouts) : m.SameSums b := by
  have status : b.statusOf = m.statusOf := by
    funext id
    rw [statusOf, statusOf, transactions]
  have fee : b.feeOf = m.feeOf := by
    funext id
    rw [feeOf, feeOf, transactions]
  have alike : ∀ {R : Type} [Keyed R Uuid] {transactionId : R → Uuid} {worth : Db → R → Int}
      (t : Table R), Follows transactionId worth → t.sum (worth b) = t.sum (worth m) :=
    fun t follows => Table.sum_congr fun _ _ => follows (congrFun status _) (congrFun fee _)
  constructor
  · intro walletId
    rw [heldOf, heldOf, refunds, payouts, alike _ (follows_refundHold walletId),
      alike _ (follows_payoutHold walletId)]
  · intro statuses paymentId
    rw [totalOf_eq, totalOf_eq, refunds, alike _ (follows_refunded statuses paymentId)]

theorem posted {id : Uuid} {input : PostingInput} {amount : Int}
    (posts : LedgerService.Posts id input amount m b) : m.SameSums b := by
  obtain ⟨-, rfl⟩ := posts
  exact congr rfl rfl rfl

theorem created {row : Transaction} (linked : m.Linked) (created : Created row m b) :
    m.SameSums b := by
  have refunds : b.refunds = m.refunds := by
    obtain ⟨-, rfl⟩ := created
    rfl
  have payouts : b.payouts = m.payouts := by
    obtain ⟨-, rfl⟩ := created
    rfl
  constructor
  · intro walletId
    rw [heldOf, heldOf, refunds, payouts,
      linked.refunds.sum_created (follows_refundHold walletId) created,
      linked.payouts.sum_created (follows_payoutHold walletId) created]
  · intro statuses paymentId
    rw [totalOf_eq, totalOf_eq, refunds,
      linked.refunds.sum_created (follows_refunded statuses paymentId) created]

/-- A transaction that is neither a refund's nor a payout's. -/
theorem transitioned {id : Uuid} {status : TransactionStatus} {patch : Requests.TransitionPatch}
    (linked : m.Linked) (moved : Transitioned id status patch m b) {row : Transaction}
    (found : m.transactions.find? id = some row) (refund : row.type ≠ .refund)
    (payout : row.type ≠ .withdrawal) : m.SameSums b := by
  have others : ∀ {R : Type} [Keyed R Uuid] {t : Table R} {transactionId : R → Uuid}
      {type : TransactionType}, Files m t transactionId type → row.type ≠ type →
      ∀ r ∈ t, transactionId r ≠ id := by
    rintro R _ t transactionId type files other r member rfl
    obtain ⟨its, there, rfl⟩ := files.stored r member
    exact other (congrArg _ (Option.some.inj (found.symm.trans there)))
  have refunds := others linked.refunds refund
  have payouts := others linked.payouts payout
  have same : b.refunds = m.refunds ∧ b.payouts = m.payouts := by
    obtain ⟨-, rfl⟩ := moved
    exact ⟨rfl, rfl⟩
  constructor
  · intro walletId
    rw [heldOf, heldOf, same.1, same.2,
      Files.sum_transitioned_other (follows_refundHold walletId) moved refunds,
      Files.sum_transitioned_other (follows_payoutHold walletId) moved payouts]
  · intro statuses paymentId
    rw [totalOf_eq, totalOf_eq, same.1,
      Files.sum_transitioned_other (follows_refunded statuses paymentId) moved refunds]

end SameSums

/-! ## Refunds -/

section Refund

variable {refund : Refund}

/-- A refund's transaction moves: its hold, and what counts of it. -/
structure RefundMoves (refund : Refund) (m b : Db) : Prop where
  held : ∀ walletId, b.heldOf walletId =
    m.heldOf walletId + (b.refundHold walletId refund - m.refundHold walletId refund)
  totals : ∀ statuses paymentId, RefundsService.totalOf statuses paymentId b =
    RefundsService.totalOf statuses paymentId m +
      (b.refunded statuses paymentId refund - m.refunded statuses paymentId refund)

theorem RefundMoves.transitioned {status : TransactionStatus} {patch : Requests.TransitionPatch}
    (linked : m.Linked) (member : refund ∈ m.refunds)
    (moved : Transitioned refund.transactionId status patch m b) : RefundMoves refund m b := by
  have others : ∀ payout ∈ m.payouts, payout.transactionId ≠ refund.transactionId :=
    fun payout there => linked.payouts.apart linked.refunds (by decide) payout there refund member
  have same : b.refunds = m.refunds ∧ b.payouts = m.payouts := by
    obtain ⟨-, rfl⟩ := moved
    exact ⟨rfl, rfl⟩
  constructor
  · intro walletId
    rw [heldOf, heldOf, same.1, same.2,
      linked.refunds.sum_transitioned (follows_refundHold walletId) moved member rfl,
      Files.sum_transitioned_other (follows_payoutHold walletId) moved others]
    ring
  · intro statuses paymentId
    rw [totalOf_eq, totalOf_eq, same.1,
      linked.refunds.sum_transitioned (follows_refunded statuses paymentId) moved member rfl]

/-- A refund that ends gives back what it held. -/
theorem RefundMoves.ended {status : TransactionStatus} (moves : RefundMoves refund m b)
    (before : m.statusOf refund.transactionId = some .processing)
    (after : b.statusOf refund.transactionId = some status) (other : status ≠ .processing)
    (walletId : Uuid) : b.heldOf walletId =
      m.heldOf walletId + if refund.walletId = walletId then -refund.walletDebitAmount else 0 := by
  rw [moves.held, refundHold, refundHold, before, after]
  by_cases own : refund.walletId = walletId <;> simp [own, other]

theorem RefundMoves.successful {status : TransactionStatus} (moves : RefundMoves refund m b)
    (before : m.statusOf refund.transactionId = some .processing)
    (after : b.statusOf refund.transactionId = some status) (paymentId : Uuid) :
    RefundsService.totalOf [.successful] paymentId b =
      RefundsService.totalOf [.successful] paymentId m +
        if refund.paymentId = paymentId ∧ status = .successful then refund.amount else 0 := by
  rw [moves.totals, refunded, refunded, before, after]
  simp

theorem heldOf_refundFiled (filed : RefundFiled refund m b) (walletId : Uuid) :
    b.heldOf walletId = m.heldOf walletId + m.refundHold walletId refund := by
  obtain ⟨passed, rfl⟩ := filed
  have absent := (checkNewRefund_ok passed).2.2.1
  have inserted : (m.refunds.insert refund).sum (m.refundHold walletId) = _ := Table.sum_insert absent
  have unfolded : (m.onRefunds (·.insert refund)).heldOf walletId =
      (m.refunds.insert refund).sum (m.refundHold walletId) + m.payouts.sum (m.payoutHold walletId) := rfl
  rw [unfolded, inserted, heldOf]
  ring

theorem totalOf_refundFiled (filed : RefundFiled refund m b) (statuses : List TransactionStatus)
    (paymentId : Uuid) : RefundsService.totalOf statuses paymentId b =
      RefundsService.totalOf statuses paymentId m + m.refunded statuses paymentId refund := by
  obtain ⟨passed, rfl⟩ := filed
  have absent := (checkNewRefund_ok passed).2.2.1
  rw [totalOf_eq, totalOf_eq]
  exact Table.sum_insert (f := m.refunded statuses paymentId) absent

end Refund

/-! ## Payouts -/

section Payout

variable {payout : Payout}

/-- A payout's transaction moves: its hold. -/
structure PayoutMoves (payout : Payout) (m b : Db) : Prop where
  held : ∀ walletId, b.heldOf walletId =
    m.heldOf walletId + (b.payoutHold walletId payout - m.payoutHold walletId payout)
  totals : ∀ statuses paymentId, RefundsService.totalOf statuses paymentId b =
    RefundsService.totalOf statuses paymentId m

theorem PayoutMoves.transitioned {status : TransactionStatus} {patch : Requests.TransitionPatch}
    (linked : m.Linked) (member : payout ∈ m.payouts)
    (moved : Transitioned payout.transactionId status patch m b) : PayoutMoves payout m b := by
  have others : ∀ refund ∈ m.refunds, refund.transactionId ≠ payout.transactionId :=
    fun refund there => linked.refunds.apart linked.payouts (by decide) refund there payout member
  have same : b.refunds = m.refunds ∧ b.payouts = m.payouts := by
    obtain ⟨-, rfl⟩ := moved
    exact ⟨rfl, rfl⟩
  constructor
  · intro walletId
    rw [heldOf, heldOf, same.1, same.2,
      linked.payouts.sum_transitioned (follows_payoutHold walletId) moved member rfl,
      Files.sum_transitioned_other (follows_refundHold walletId) moved others]
    ring
  · intro statuses paymentId
    rw [totalOf_eq, totalOf_eq, same.1,
      Files.sum_transitioned_other (follows_refunded statuses paymentId) moved others]

/-- A payout that ends gives back what it held. -/
theorem PayoutMoves.ended {status : TransactionStatus} (moves : PayoutMoves payout m b)
    (before : m.statusOf payout.transactionId = some .processing)
    (after : b.statusOf payout.transactionId = some status) (other : status ≠ .processing)
    (walletId : Uuid) : b.heldOf walletId = m.heldOf walletId +
      if payout.walletId = walletId then -(payout.amount + m.feeOf payout.transactionId) else 0 := by
  rw [moves.held, payoutHold, payoutHold, before, after]
  by_cases own : payout.walletId = walletId <;> simp [own, other]

theorem heldOf_payoutFiled (filed : PayoutFiled payout m b) (walletId : Uuid) :
    b.heldOf walletId = m.heldOf walletId + m.payoutHold walletId payout := by
  obtain ⟨passed, rfl⟩ := filed
  have absent := (checkNewPayout_ok passed).2.1
  have inserted : (m.payouts.insert payout).sum (m.payoutHold walletId) = _ := Table.sum_insert absent
  have unfolded : (m.onPayouts (·.insert payout)).heldOf walletId =
      m.refunds.sum (m.refundHold walletId) + (m.payouts.insert payout).sum (m.payoutHold walletId) := rfl
  rw [unfolded, inserted, heldOf]
  ring

end Payout

/-! ## Payments -/

theorem pendingOf_paymentChanged {id : Uuid} {change : Payment → Payment} {payment : Payment}
    (keeps : ∀ row, key (change row) = key row) (same : ∀ row, (change row).walletId = row.walletId)
    (found : m.payments.find? id = some payment) (changed : PaymentChanged id change m b)
    (walletId : Uuid) : b.pendingOf walletId = m.pendingOf walletId +
      if payment.walletId = walletId then (change payment).pendingAmount - payment.pendingAmount
      else 0 := by
  obtain ⟨-, rfl⟩ := changed
  have moved : (m.onPayments (·.modify id change)).pendingOf walletId = _ :=
    Table.sum_modify (f := fun row : Payment =>
      if row.walletId = walletId then row.pendingAmount else 0) keeps found
  rw [moved, pendingOf, same payment]
  split_ifs <;> ring

end Db

end Finstack
