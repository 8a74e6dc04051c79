import Finstack.Soundness.Books.Methods

/-! # Calls that transfer

A transfer between users' wallets, from what is read to what is committed.
-/

namespace Finstack

open Foundation Discipline LedgerService

namespace Services

variable {mode : Mode} {T : Db → Db → Prop} {F : Knowing} {held : List RowLock} {c : Db}

namespace TransfersService

theorem keeping_senderWallet (userId : Uuid) (input : TransferInput) :
    Keeping mode T F (senderWallet userId input) (fun _ => T) fun wallet =>
      F.and (WalletsService.theWallet wallet.id wallet) := by
  refine Leads.bind (U := fun _ => T) (R := fun _ => F) ?_ fun currency => ?_
  · unfold currencyOf
    cases input.currency with
    | some currency => exact keeping_stay
    | none => exact keeping_queryCommitted.bind fun _ => keeping_stay
  · cases currency with
    | some currency =>
      exact (WalletsService.keeping_findWallet _ _).bind fun _ => keeping_orThrow_each
    | none => exact keeping_throw

/-- The two wallets of a transfer. -/
def theWallets (source destination : Wallet) : Knowing :=
  (WalletsService.theWallet source.id source).and (WalletsService.theWallet destination.id destination)

theorem keeping_collectFee (fresh : Fresh) (source : Wallet) (row : Transaction) (fee : FeeQuote)
    (unused : ∀ held c m, c.Books → F.holds held c → T c m →
      ¬ m.Uses (Purpose.transferFee.text row.reference)) :
    Keeping .inside T F (collectFee fresh source row fee)
      (fun _ c b => 0 < fee.amount ∧ WalletsService.Did T source.id (fun c wallet =>
          Drawn c wallet .available fee.amount (Purpose.transferFee.text row.reference)) c b ∨
        ¬ 0 < fee.amount ∧ T c b) fun _ => F :=
  keeping_when fun _ => WalletsService.keeping_collectFeeWithin _ _ _ unused

theorem keeping_transferWithin (id : Uuid) (source destination : Wallet) (movement : MoneyMovement)
    (unused : ∀ held c m, c.Books → F.holds held c → T c m → ¬ m.Uses movement.reference) :
    Keeping .inside T F (WalletsService.transferWithin id source destination movement)
      (fun _ c b => ∃ m total, T c m ∧
        Posts id (Finstack.WalletsService.transferWithin source destination movement) total m b)
      fun _ => F := by
  unfold WalletsService.transferWithin
  split_ifs
  · exact keeping_throw
  · exact (WalletsService.keeping_lockActiveWallets _).bind fun _ =>
      keeping_less (keeping_postWithin id unused) fun _ _ _ known => known.1

/-- The reference of a new transaction is new, and so are its postings'. -/
theorem leg_unused (books : c.Books) {row : Transaction} {m : Db} (plain : Colonless row.reference)
    (created : Created row c m) (purpose : Purpose) (moves : purpose ∈ [Purpose.transfer, .transferFee]) :
    ¬ c.Uses (purpose.text row.reference) := by
  rw [Purpose.text_eq]
  exact books.transfer_unused plain (Db.checkNewTransaction_ok created.1).2 moves

theorem newRow_plain {row : Transaction} {id : Uuid} {random clock : Nat}
    {input : TransactionsService.NewTransaction}
    (is : row = TransactionsService.newTransaction id random clock input) : Colonless row.reference := by
  rw [is]
  exact TransactionsService.newTransaction_plain _ _ _ _

theorem keeping_move (generated : Generated) (userId recipientId : Uuid) (source destination : Wallet)
    (input : TransferInput) (fee : FeeQuote) (idempotencyKey : String) :
    Keeping .inside Eq (theWallets source destination)
      (move generated userId recipientId source destination input fee idempotencyKey)
      (fun _ => KeepsBooks) fun _ => Fact.nothing := by
  refine (LimitsService.keeping_assertWithinLimitsWithin _).bind fun _ =>
    (TransactionsService.keeping_create _ _ _).bind fun row => Leads.bind
      (keeping_transferWithin _ _ _ _ ?_) fun posted => (keeping_collectFee _ _ _ _ ?_).bind fun _ =>
    keeping_query.bind fun now => (TransactionsService.keeping_transition _ _ _).bind fun completed =>
    keeping_commit ((OutboxService.keeping_add _).bind fun _ => keeping_stay) ?_
  · rintro held c m books ⟨-, clock, is⟩ ⟨_, rfl, created⟩ uses
    rw [created.2] at uses
    exact leg_unused books (newRow_plain is) created .transfer (by simp) uses
  · rintro held c m books ⟨-, clock, is⟩ ⟨m₁, total, ⟨_, rfl, created⟩, posts⟩ uses
    rcases (Db.uses_posted posts).mp uses with before | same
    · rw [created.2] at before
      exact leg_unused books (newRow_plain is) created .transferFee (by simp) before
    · exact Purpose.text_ne .transfer .transferFee (newRow_plain is) (by simp) same
  rintro - held c b books ⟨m₄, ⟨m₃, charged, moved⟩, rfl⟩ ⟨⟨paying, receiving⟩, clock, is⟩
  obtain ⟨sender, member, own, -, accounts⟩ := WalletsService.theWallet_row paying
  obtain ⟨receiver, member', own', -, accounts'⟩ := WalletsService.theWallet_row receiving
  have type : row.type = .transfer := by
    rw [is]
    unfold newTransaction FeesService.recorded
    split_ifs <;> rfl
  have legs : Finstack.WalletsService.transferWithin source destination (transferMovement row input) =
      Finstack.WalletsService.move source.currency (transferMovement row input)
        (balanceAccount sender .available) (balanceAccount receiver .available) := by
    rw [accounts .available, accounts' .available]
    rfl
  obtain ⟨m₂, ⟨m₁, total, ⟨_, rfl, created⟩, posts⟩, charged⟩ : ∃ m₂, (∃ m total, (∃ m', c = m' ∧ Created row m' m) ∧
        Posts (generated.fresh 1) (Finstack.WalletsService.transferWithin source destination
          (transferMovement row input)) total m m₂) ∧
      (Drawn c sender .available fee.amount (postingReference .transferFee row.reference) m₂ m₃ ∨ m₃ = m₂) := by
    rcases charged with ⟨-, m₂, done, sender', there, its, drawn⟩ | ⟨-, done⟩
    · obtain rfl := Table.eq_of_key there member (its.trans own.symm)
      rw [Purpose.text_eq] at drawn
      exact ⟨m₂, done, .inl drawn⟩
    · exact ⟨m₃, done, .inr rfl⟩
  exact Transferred.books books (.intro member member' type (newRow_plain is) created
    (Purpose.text_eq .transfer _) legs posts charged moved)

theorem keeping_recover (userId : Uuid) (idempotencyKey : String) (error : Err) :
    Keeping .outside T F (recover userId idempotencyKey error) (fun _ => T) fun _ => F := by
  unfold recover
  split_ifs
  · refine keeping_queryCommitted.bind fun winner => ?_
    cases winner with
    | none => exact keeping_throw
    | some winner => exact keeping_stay
  · exact keeping_throw

theorem keeping_transfer (generated : Generated) (userId : Uuid) (input : TransferInput)
    (idempotencyKey : String) :
    Keeping .outside T Fact.nothing (transfer generated userId input idempotencyKey) (fun _ => T)
      fun _ => Fact.nothing := by
  refine keeping_queryCommitted.bind fun existing => ?_
  cases existing with
  | some existing => exact keeping_stay
  | none =>
    refine keeping_queryCommitted.bind fun found => keeping_orThrow.bind fun recipient => ?_
    split_ifs
    · exact keeping_throw
    refine (keeping_senderWallet userId input).bind fun source =>
      ((WalletsService.keeping_findWallet _ _).bind fun found => keeping_orThrow_each).bind
        fun destination => (FeesService.keeping_quote _ _ _ _).bind fun fee =>
        leads_tryCatch (keeping_inTransaction ?_) fun error =>
          keeping_recover _ _ error
    refine Leads.mono ?_ (fun _ _ _ _ known => known) (keeping_move _ _ _ _ _ _ _ _)
    exact fun _ _ _ known => ⟨known.1.1.2, known.1.2⟩

end TransfersService

end Services

end Finstack
