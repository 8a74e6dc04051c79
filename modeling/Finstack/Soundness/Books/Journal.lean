import Finstack.Soundness.Books.Sums

/-! # What commits leave of the journal

A posting stays one that its record has come to: records only move on, and a payment whose settlement
hold has ended stays as it is.
-/

namespace Finstack

open Foundation Services LedgerService

namespace Ledger

/-- What holds of the stored postings even before their transaction commits. -/
structure Recording (ledger : Ledger) : Prop where
  indexed : ledger.Indexed
  entries : ∀ entry ∈ ledger.entries,
    (ledger.transactions.find? entry.ledgerTransactionId).isSome

variable {ledger : Ledger} {id : Uuid} {input : PostingInput} {amount : Int}

theorem Recording.posted (recording : ledger.Recording) (postable : Postable id input amount ledger) :
    (LedgerService.posted id input amount ledger).Recording where
  indexed := ((Extends.refl ledger).posted postable).indexed recording.indexed
  entries entry member := by
    rw [posted_transaction]
    simp only [LedgerService.posted, Ledger.post, Ledger.insertEntries, Ledger.insertTransaction,
      List.mem_append] at member
    rcases member with old | new
    · rw [Option.isSome_or, recording.entries entry old, Bool.true_or]
    · rw [newEntries_ours _ _ entry new, newTransaction_id, if_pos rfl]
      simp

theorem mem_posted (postable : Postable id input amount ledger) {posting : LedgerTransaction} :
    posting ∈ (LedgerService.posted id input amount ledger).transactions ↔
      posting ∈ ledger.transactions ∨ posting = newTransaction id input amount := by
  obtain ⟨-, absent, -⟩ := checkNewTransaction_ok postable.transaction
  exact Table.mem_insert absent

end Ledger

namespace Db

variable {c m b : Db} {name : String} {purpose : Purpose}

/-! ## References -/

theorem uses_posted {id : Uuid} {input : PostingInput} {amount : Int}
    (posts : Posts id input amount m b) {reference : String} :
    b.Uses reference ↔ m.Uses reference ∨ input.reference = reference := by
  obtain ⟨postable, rfl⟩ := posts
  constructor
  · rintro ⟨posting, member, same⟩
    rcases (Ledger.mem_posted postable).mp member with old | rfl
    · exact .inl ⟨posting, old, same⟩
    · exact .inr same
  · rintro (⟨posting, member, same⟩ | same)
    · exact ⟨posting, (Ledger.mem_posted postable).mpr (.inl member), same⟩
    · exact ⟨_, (Ledger.mem_posted postable).mpr (.inr rfl), same⟩

/-- A posting needs a reference of its own. -/
theorem unused_of_posts {id : Uuid} {input : PostingInput} {amount : Int}
    (posts : Posts id input amount m b) : ¬ m.Uses input.reference := by
  obtain ⟨-, -, unused, -⟩ := Ledger.checkNewTransaction_ok posts.postable.transaction
  rintro ⟨posting, member, same⟩
  have absent := List.find?_eq_none.mp unused posting member
  simp [same] at absent

/-- Whatever has been posted under a record's reference, the record has come to it. -/
theorem Journal.done (journal : c.Journal) (plain : Colonless name)
    (uses : c.Uses (postingReference purpose name)) : c.Done name purpose := by
  obtain ⟨posting, member, same⟩ := uses
  obtain ⟨purpose', name', plain', reference, done⟩ := journal.attributed posting member
  obtain ⟨rfl, rfl⟩ := postingReference_inj plain' plain (reference.symm.trans same)
  exact done

theorem Journal.recording (journal : c.Journal) : c.ledger.Recording :=
  ⟨journal.indexed, journal.entries⟩

/-! ## Records move on -/

theorem Progress.statusOf (progress : c.Progress b) {id : Uuid} {status : TransactionStatus}
    (before : c.statusOf id = some status) :
    ∃ status', b.statusOf id = some status' ∧ status.Later status' := by
  obtain ⟨row, found, rfl⟩ := Option.map_eq_some_iff.mp before
  obtain ⟨row', found', same⟩ := progress.transactions id row found
  exact ⟨row'.status, statusOf_of_find? found', same.status⟩

/-- Nothing comes after these. -/
theorem Progress.statusOf_terminal (progress : c.Progress b) {id : Uuid} {status : TransactionStatus}
    (before : c.statusOf id = some status) (terminal : isTerminal status = true) :
    b.statusOf id = some status := by
  obtain ⟨status', after, later⟩ := progress.statusOf before
  rw [after, later.of_terminal terminal]

theorem Progress.statusOf_successful (progress : c.Progress b) {id : Uuid}
    (before : c.statusOf id = some .successful ∨ c.statusOf id = some .reversed) :
    b.statusOf id = some .successful ∨ b.statusOf id = some .reversed := by
  rcases before with before | before
  · obtain ⟨status', after, later⟩ := progress.statusOf before
    rcases later.of_successful with rfl | rfl
    · exact .inl after
    · exact .inr after
  · exact .inr (progress.statusOf_terminal before rfl)

theorem Progress.mem_refunds (progress : c.Progress b) {refund : Refund} (member : refund ∈ c.refunds) :
    ∃ row ∈ b.refunds, row.id = refund.id ∧ refund.Continues row := by
  obtain ⟨row, found, same⟩ := progress.refunds refund.id refund (Table.find?_of_mem member)
  exact ⟨row, (Table.find?_some found).1, (Table.find?_some found).2, same⟩

theorem Progress.mem_payouts (progress : c.Progress b) {payout : Payout} (member : payout ∈ c.payouts) :
    ∃ row ∈ b.payouts, row.id = payout.id ∧ payout.Continues row := by
  obtain ⟨row, found, same⟩ := progress.payouts payout.id payout (Table.find?_of_mem member)
  exact ⟨row, (Table.find?_some found).1, (Table.find?_some found).2, same⟩

theorem Progress.mem_transactions (progress : c.Progress b) {row : Transaction}
    (member : row ∈ c.transactions) : ∃ row' ∈ b.transactions, row.Continues row' := by
  obtain ⟨row', found, same⟩ := progress.transactions row.id row (Table.find?_of_mem member)
  exact ⟨row', (Table.find?_some found).1, same⟩

/-- Records only move on; a settlement is not undone as long as nothing of its payment is held again. -/
theorem Done.progress (progress : c.Progress b) (linked : b.Linked)
    (settled : purpose = .settlement → ∀ payment ∈ c.payments, uuidText payment.id = name →
      ∃ row ∈ b.payments, row.id = payment.id ∧ payment.SameHold row)
    (done : c.Done name purpose) : b.Done name purpose := by
  have refunds : ∀ refund ∈ c.refunds, refund.reference = name → ∃ row ∈ b.refunds,
      row.reference = name ∧ row.transactionId = refund.transactionId := by
    rintro refund member rfl
    obtain ⟨row, there, -, same⟩ := progress.mem_refunds member
    rw [Refund.Continues] at same
    exact ⟨row, there, by rw [same], by rw [same]⟩
  have payouts : ∀ payout ∈ c.payouts, payout.reference = name → ∃ row ∈ b.payouts,
      row.reference = name ∧ row.transactionId = payout.transactionId := by
    rintro payout member rfl
    obtain ⟨row, there, -, same⟩ := progress.mem_payouts member
    rw [Payout.Continues] at same
    exact ⟨row, there, by rw [same], by rw [same]⟩
  cases purpose with
  | payment | paymentSource | paymentTarget | paymentFee =>
    obtain ⟨row, member, rfl, type, status⟩ := done
    obtain ⟨row', there, same⟩ := progress.mem_transactions member
    refine ⟨row', there, same.reference, same.type.trans type, ?_⟩
    have later := same.status
    rcases status with before | before <;> rw [before] at later
    · exact later.of_successful
    · exact .inr (later.of_terminal rfl)
  | settlement =>
    obtain ⟨payment, member, own, nothing, time, ended, past⟩ := done
    obtain ⟨row, there, its, pendingAmount, fundsAvailableAt⟩ := settled rfl payment member own
    exact ⟨row, there, its ▸ own, pendingAmount.trans nothing, time, fundsAvailableAt.trans ended,
      past.trans progress.clock⟩
  | refundHold =>
    obtain ⟨refund, member, own⟩ := done
    obtain ⟨row, there, own', -⟩ := refunds refund member own
    exact ⟨row, there, own'⟩
  | refund | refundSource =>
    obtain ⟨refund, member, own, status⟩ := done
    obtain ⟨row, there, own', same⟩ := refunds refund member own
    refine ⟨row, there, own', ?_⟩
    rw [same]
    rcases progress.statusOf_successful (.inl status) with after | after
    · exact after
    · have possible := linked.refundStatus row there _ (same ▸ after)
      simp at possible
  | refundRelease =>
    obtain ⟨refund, member, own, status⟩ := done
    obtain ⟨row, there, own', same⟩ := refunds refund member own
    exact ⟨row, there, own', same ▸ progress.statusOf_terminal status rfl⟩
  | payoutHold =>
    obtain ⟨payout, member, own⟩ := done
    obtain ⟨row, there, own', -⟩ := payouts payout member own
    exact ⟨row, there, own'⟩
  | payout | payoutFee =>
    obtain ⟨payout, member, own, status⟩ := done
    obtain ⟨row, there, own', same⟩ := payouts payout member own
    exact ⟨row, there, own', same ▸ progress.statusOf_successful status⟩
  | payoutRelease =>
    obtain ⟨payout, member, own, status⟩ := done
    obtain ⟨row, there, own', same⟩ := payouts payout member own
    exact ⟨row, there, own', same ▸ progress.statusOf_terminal status rfl⟩
  | payoutReversal | payoutFeeRefund =>
    obtain ⟨payout, member, own, status⟩ := done
    obtain ⟨row, there, own', same⟩ := payouts payout member own
    exact ⟨row, there, own', same ▸ progress.statusOf_terminal status rfl⟩
  | transfer | transferFee =>
    obtain ⟨row, member, rfl, type⟩ := done
    obtain ⟨row', there, same⟩ := progress.mem_transactions member
    exact ⟨row', there, same.reference, same.type.trans type⟩

/-- What a commit has to add to the journal. -/
theorem Journal.commit (journal : c.Journal) (progress : c.Progress b) (linked : b.Linked)
    (recording : b.ledger.Recording) (cleared : b.ledger.deferred = [])
    (settled : ∀ payment ∈ c.payments, c.Uses (postingReference .settlement (uuidText payment.id)) →
      b.payments.find? payment.id = some payment)
    (added : ∀ posting ∈ b.ledger.transactions, posting ∈ c.ledger.transactions ∨
      ∃ purpose name, Colonless name ∧ posting.reference = postingReference purpose name ∧
        b.Done name purpose) : b.Journal where
  indexed := recording.indexed
  entries := recording.entries
  settled := cleared
  attributed posting member := by
    rcases added posting member with old | new
    · obtain ⟨purpose, name, plain, reference, done⟩ := journal.attributed posting old
      refine ⟨purpose, name, plain, reference, done.progress progress linked ?_⟩
      rintro rfl payment there rfl
      have kept := settled payment there ⟨posting, old, reference⟩
      exact ⟨payment, (Table.find?_some kept).1, rfl, rfl, rfl⟩
    · exact new

end Db

end Finstack
