import Finstack.Soundness.Books.Invariant

/-! # What the books rely on

What no commit undoes, whoever makes it, and what a call knows of rows it has read or locked.
-/

namespace Finstack

open Foundation Discipline Services LedgerService

/-! ## What no commit undoes -/

def Wallet.Continues (row row' : Wallet) : Prop :=
  row'.currency = row.currency ∧
    ∀ balance, balanceAccount row' balance = balanceAccount row balance

structure Transaction.Continues (row row' : Transaction) : Prop where
  reference : row'.reference = row.reference
  type : row'.type = row.type
  feeAmount : row'.feeAmount = row.feeAmount
  status : row.status.Later row'.status

def Payment.Continues (row row' : Payment) : Prop :=
  row'.transactionId = row.transactionId ∧ row'.owner = row.owner ∧ row'.walletId = row.walletId ∧
    row'.amount = row.amount ∧ row'.currency = row.currency

/-- The payment's settlement hold is as it was. -/
def Payment.SameHold (row row' : Payment) : Prop :=
  row'.pendingAmount = row.pendingAmount ∧ row'.fundsAvailableAt = row.fundsAvailableAt

/-- Only what the provider has said of a refund is updated. -/
def Refund.Continues (row row' : Refund) : Prop :=
  row' = { row with
    providerRefundReference := row'.providerRefundReference
    submittedAt := row'.submittedAt }

/-- Only what the provider has said of a payout is updated. -/
def Payout.Continues (row row' : Payout) : Prop :=
  row' = { row with
    providerReference := row'.providerReference
    submittedAt := row'.submittedAt }

namespace Db

/-- The reference of the posting that ends a payment's settlement hold is in use. -/
def Settled (db : Db) (paymentId : Uuid) : Prop :=
  db.Uses (postingReference .settlement (uuidText paymentId))

/-- An account of the platform's. -/
def Coded (db : Db) (accountId : Uuid) : Prop :=
  ∃ account code, db.ledger.accounts.find? accountId = some account ∧ account.code = some code

/-- What no statement of a transaction undoes. -/
structure Progress (c c' : Db) : Prop where
  clock : c.clock ≤ c'.clock
  wallets : Table.Kept Wallet.Continues c.wallets c'.wallets
  codes : Table.Kept (fun account account' => account'.code = account.code)
    c.ledger.accounts c'.ledger.accounts
  transactions : Table.Kept Transaction.Continues c.transactions c'.transactions
  payments : Table.Kept Payment.Continues c.payments c'.payments
  refunds : Table.Kept Refund.Continues c.refunds c'.refunds
  payouts : Table.Kept Payout.Continues c.payouts c'.payouts
  postings : ∀ {id t}, c.ledger.transactions.find? id = some t →
    c'.ledger.transactions.find? id = some t

/-- What no commit undoes. -/
structure Continues (c c' : Db) : Prop extends Progress c c' where
  /-- A refund only succeeds with a posting on its wallet's reserved balance. -/
  successes : ∀ refund ∈ c'.refunds, c'.statusOf refund.transactionId = some .successful →
    (c.refunds.find? refund.id).isSome ∧ c.statusOf refund.transactionId = some .successful ∨
      ∃ wallet ∈ c.wallets, wallet.id = refund.walletId ∧
        c.ledger.entriesOn wallet.reservedAccountId ≠ c'.ledger.entriesOn wallet.reservedAccountId
  /-- A settlement hold only ends with a change of the payment. -/
  released : ∀ id, c'.Settled id → c.Settled id ∨ c.payments.find? id ≠ c'.payments.find? id

end Db

namespace Services

/-- What everybody relies on. -/
def booksDiscipline : Discipline Db where
  inv := Db.Books
  change c c' := c.Continues c' ∧ c'.Books
  inv_change _ change := change.2

abbrev Knowing := Fact booksDiscipline

/-! ## What calls know -/

/-- These are locked. -/
def locked (locks : List RowLock) : Knowing where
  holds held _ := ∀ l ∈ locks, l ∈ held
  keeps _ known := known
  more subset known l member := subset l (known l member)

/-- A wallet, as far as it never changes. -/
def stored (wallet : Wallet) : Knowing :=
  .ofStable (fun db => ∃ row, db.wallets.find? wallet.id = some row ∧ wallet.Continues row) (by
    rintro c c' - ⟨continues, -⟩ ⟨row, found, currency, accounts⟩
    obtain ⟨row', found', currency', accounts'⟩ := continues.wallets _ row found
    exact ⟨row', found', currency'.trans currency,
      fun balance => (accounts' balance).trans (accounts balance)⟩)

/-- An account of the platform's. -/
def platform (id : Uuid) : Knowing :=
  .ofStable (·.Coded id) (by
    rintro c c' - ⟨continues, -⟩ ⟨account, code, found, same⟩
    obtain ⟨account', found', kept⟩ := continues.codes _ account found
    exact ⟨account', code, found', kept.trans same⟩)

def filedRefund (refund : Refund) : Knowing :=
  .ofStable (fun db => ∃ row, db.refunds.find? refund.id = some row ∧ refund.Continues row) (by
    rintro c c' - ⟨continues, -⟩ ⟨row, found, same⟩
    obtain ⟨row', found', same'⟩ := continues.refunds _ row found
    refine ⟨row', found', ?_⟩
    rw [Refund.Continues] at same same' ⊢
    rw [same', same])

def filedPayout (payout : Payout) : Knowing :=
  .ofStable (fun db => ∃ row, db.payouts.find? payout.id = some row ∧ payout.Continues row) (by
    rintro c c' - ⟨continues, -⟩ ⟨row, found, same⟩
    obtain ⟨row', found', same'⟩ := continues.payouts _ row found
    refine ⟨row', found', ?_⟩
    rw [Payout.Continues] at same same' ⊢
    rw [same', same])

def filedPayment (payment : Payment) : Knowing :=
  .ofStable (fun db => ∃ row, db.payments.find? payment.id = some row ∧ payment.Continues row) (by
    rintro c c' - ⟨continues, -⟩ ⟨row, found, a, b, d, e, f⟩
    obtain ⟨row', found', a', b', d', e', f'⟩ := continues.payments _ row found
    exact ⟨row', found', a'.trans a, b'.trans b, d'.trans d, e'.trans e, f'.trans f⟩)

/-- A row that is locked. -/
def lockedTransaction (row : Transaction) : Knowing where
  holds held c := RowLock.transaction row.id ∈ held ∧ c.transactions.find? row.id = some row
  keeps := by
    rintro held c c' ⟨-, -, same⟩ ⟨mine, found⟩
    have guarded := same _ mine
    simp only [Db.same_observed, Db.observe, Db.Observed.transaction.injEq] at guarded
    exact ⟨mine, guarded ▸ found⟩
  more subset known := ⟨subset _ known.1, known.2⟩

def lockedPayment (row : Payment) : Knowing where
  holds held c := RowLock.payment row.id ∈ held ∧ c.payments.find? row.id = some row
  keeps := by
    rintro held c c' ⟨-, -, same⟩ ⟨mine, found⟩
    have guarded := same _ mine
    simp only [Db.same_observed, Db.observe, Db.Observed.payment.injEq] at guarded
    exact ⟨mine, guarded ▸ found⟩
  more subset known := ⟨subset _ known.1, known.2⟩

/-- A reference that has been posted under. -/
def used (reference : String) : Knowing :=
  .ofStable (·.Uses reference) (by
    rintro c c' - ⟨continues, -⟩ ⟨t, member, same⟩
    exact ⟨t, (Table.find?_some (continues.postings (Table.find?_of_mem member))).1, same⟩)

end Services

end Finstack
