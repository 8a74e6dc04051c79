import Finstack.Model.Services.Checkout
import Finstack.Soundness.Books.Transfers

/-! # New payments and wallets keep the books

A payment that is requested has nothing posted for it yet, and a wallet that is opened has accounts of its
own, without entries.
-/

namespace Finstack

open Foundation Services LedgerService

variable {c m b : Db}

/-! ## Payments -/

/-- The INSERT of a payment. -/
abbrev PaymentFiled (payment : Payment) : Db → Db → Prop :=
  Saved (Db.checkNewPayment payment) (Db.onPayments (·.insert payment))

theorem Db.positive_of_checkNewTransaction {row : Transaction}
    (passed : m.checkNewTransaction row = .ok ()) : 0 < row.amount := by
  unfold checkNewTransaction at passed
  cases checked : checkTransaction row with
  | error e => simp [checked] at passed; cases passed
  | ok _ =>
    unfold checkTransaction at checked
    split_ifs at checked with small
    omega

theorem Db.absent_of_checkNewPayment {payment : Payment}
    (passed : m.checkNewPayment payment = .ok ()) : m.payments.find? payment.id = none := by
  cases found : m.payments.find? payment.id with
  | none => rfl
  | some taken =>
    unfold checkNewPayment at passed
    cases checked : checkPayment payment <;> simp [checked, found] at passed <;> cases passed

/-- A payment as `initialize` files it. -/
structure Payment.New (payment : Payment) (row : Transaction) : Prop where
  transactionId : payment.transactionId = row.id
  amount : payment.amount = row.amount
  pendingAmount : payment.pendingAmount = 0
  fundsAvailableAt : payment.fundsAvailableAt = none

theorem Db.Linked.paymentFiled {payment : Payment} {row : Transaction} (linked : m.Linked)
    (filed : PaymentFiled payment m b) (new : payment.New row)
    (found : m.transactions.find? row.id = some row) (type : row.type = .payment)
    (positive : 0 < row.amount) (fee : 0 ≤ row.feeAmount)
    (fresh : ∀ other ∈ m.payments, other.transactionId ≠ row.id)
    (its : ∃ wallet ∈ m.wallets, wallet.id = payment.walletId) : b.Linked := by
  obtain ⟨passed, rfl⟩ := filed
  have absent : m.payments.find? (key payment) = none := absent_of_checkNewPayment passed
  rw [← new.transactionId] at found fresh
  have files := linked.payments.insert absent found type fresh
  refine ⟨⟨files.stored, files.own⟩, ⟨linked.refunds.stored, linked.refunds.own⟩,
    ⟨linked.payouts.stored, linked.payouts.own⟩, linked.transactionNames, linked.refundNames,
    linked.payoutNames, fun other member => ?_, fun refund member => ?_, linked.payingOut,
    linked.refundStatus, linked.payoutStatus⟩
  · rcases (Table.mem_insert absent).mp member with old | rfl
    · exact linked.credited other old
    · have due : m.feeOf other.transactionId = row.feeAmount := by rw [feeOf, found, Option.elim_some]
      exact ⟨new.amount ▸ positive, new.pendingAmount.ge, its, due ▸ fee⟩
  · obtain ⟨amount, debit, hold, most, payment', there, own⟩ := linked.refunding refund member
    exact ⟨amount, debit, hold, most, payment', (Table.mem_insert absent).mpr (.inl there), own⟩

/-- A payment is requested: its transaction and its row. -/
inductive PaymentRequested (c : Db) : Db → Prop
  | intro {row : Transaction} {payment : Payment} {m₁ m₂ : Db}
      (type : row.type = .payment) (fee : 0 ≤ row.feeAmount) (name : Colonless row.reference)
      (its : ∃ wallet ∈ c.wallets, wallet.id = payment.walletId) (new : payment.New row)
      (created : Created row c m₁) (filed : PaymentFiled payment m₁ m₂) : PaymentRequested c m₂.cleared

theorem PaymentRequested.books (books : c.Books) (requested : PaymentRequested c b) :
    c.Continues b ∧ b.Books := by
  obtain @⟨row, payment, m₁, m₂, type, fee, name, its, new, created, filed⟩ := requested
  have unused := (Db.checkNewTransaction_ok created.1).1
  have positive := Db.positive_of_checkNewTransaction created.1
  have found : m₁.transactions.find? row.id = some row := by
    rw [created.2]
    exact Table.find?_insert_self unused
  have sums := Db.SameSums.created books.linked created
  have others : ∀ {R : Type} [Keyed R Uuid] {t : Table R} {transactionId : R → Uuid}
      {type : TransactionType}, Files c t transactionId type → ∀ r ∈ t,
      m₁.statusOf (transactionId r) = c.statusOf (transactionId r) ∧ transactionId r ≠ row.id := by
    intro R _ t transactionId type files r there
    obtain ⟨_, here, -⟩ := files.stored r there
    refine ⟨(Db.statusOf_created created here).1, fun same => ?_⟩
    rw [same, unused] at here
    cases here
  have linked₁ := books.linked.created name created
  have linked := linked₁.paymentFiled filed new found type positive fee
    (by
      rw [created.2]
      exact fun other there => (others books.linked.payments other there).2)
    (by
      rw [created.2]
      exact its)
  have absent : c.payments.find? (key payment) = none := by
    have before := Db.absent_of_checkNewPayment filed.1
    rwa [created.2] at before
  have progress₁ : c.Progress m₁ := .created created
  have moves : LedgerMoves c.wallets 0 0 0 [] c.ledger c.ledger := .refl
  obtain rfl := filed.2
  have progress₂ : m₁.Progress (m₁.onPayments (·.insert payment)) :=
    { Db.Progress.refl m₁ with payments := Table.kept_insert Payment.Continues.refl _ payment }
  have progress := (progress₁.trans progress₂).trans (.cleared _)
  have result := created.2
  have members : ∀ other ∈ m₁.payments.insert payment, other ∈ c.payments ∨ other = payment := by
    rw [result]
    exact fun other => (Table.mem_insert absent).mp
  have refunds : ∀ refund ∈ c.refunds,
      m₁.statusOf refund.transactionId = c.statusOf refund.transactionId :=
    fun refund there => (others books.linked.refunds refund there).1
  have total : ∀ id, RefundsService.totalOf [.successful] id (m₁.onPayments (·.insert payment)) =
      RefundsService.totalOf [.successful] id c := fun id => sums.totals _ id
  -- nothing is refunded of a payment that is not there
  have unrefunded : RefundsService.totalOf [.successful] payment.id c = 0 := by
    rw [Db.totalOf_eq]
    refine (Table.sum_congr fun refund there => ?_).trans (Table.sum_zero c.refunds)
    obtain ⟨-, -, -, -, payment', listed, own, -⟩ := books.linked.refunding refund there
    rw [Db.refunded, if_neg]
    rintro ⟨mine, -⟩
    exact Table.find?_eq_none_iff.mp absent payment' listed (own.trans mine)
  refine ⟨{ progress with
      successes := Db.successes_of fun refund there now => ?_
      released := fun id used => .inl ?_ },
    books.commit progress (linked.congr rfl rfl rfl rfl rfl) moves ?_ ?_ (fun id => ?_) (fun id => ?_)
      (fun _ mine => absurd mine List.not_mem_nil) (fun other there _ => ?_) (fun other there full => ?_)
      (fun other there uncredited => ?_) fun quote there reference _ => .inl ?_⟩
  · have there' : refund ∈ c.refunds := by rwa [result] at there
    exact ⟨there', (refunds refund there').symm.trans now⟩
  · rw [result] at used
    exact used
  · rw [result]
    rfl
  · rw [result]
    exact ⟨rfl, rfl⟩
  · rw [ite_self, add_zero]
    have inserted : (c.payments.insert payment).sum
        (fun row => if row.walletId = id then row.pendingAmount else 0) = _ := Table.sum_insert absent
    rw [new.pendingAmount, ite_self, add_zero] at inserted
    rw [result]
    exact inserted
  · rw [ite_self, add_zero]
    exact sums.held id
  · rw [result]
    exact Table.find?_insert_of_some (Table.find?_of_mem there)
  · rcases members other there with old | rfl
    · exact progress.statusOf_terminal (books.reversed other old ((total other.id).symm.trans full)) rfl
    · have nothing : other.amount = 0 := by
        rw [← unrefunded, ← full]
        exact total other.id
      rw [new.amount] at nothing
      omega
  · rcases members other there with old | rfl
    · exact books.uncredited other old fun before => uncredited (progress.credited before)
    · exact ⟨new.pendingAmount, new.fundsAvailableAt⟩
  · rwa [result] at there

/-! ## Wallets -/

/-- An account that is opened. -/
abbrev AccountOpened (account : LedgerAccount) : Db → Db → Prop :=
  Saved (fun db => db.ledger.checkNewAccount account) (Db.onLedger (Ledger.insertAccount account))

theorem Db.absent_of_checkNewWallet {wallet : Wallet} (passed : m.checkNewWallet wallet = .ok ()) :
    m.wallets.find? wallet.id = none := by
  unfold checkNewWallet at passed
  split_ifs at passed with taken
  simpa using taken

/-- Accounts that have been opened for a wallet: they are new, and nothing else has changed. -/
structure Opening (ids : List Uuid) (c b : Db) : Prop where
  books : b.Books
  result : ∃ accounts, b = c.onLedger fun ledger => { ledger with accounts := accounts }
  kept : ∀ {id account}, c.ledger.accounts.find? id = some account →
    b.ledger.accounts.find? id = some account
  new : ∀ id ∈ ids, c.ledger.accounts.find? id = none ∧ ∃ account,
    b.ledger.accounts.find? id = some account ∧ account.code = none ∧
      account.normalBalance = .credit ∧ account.balance = 0
  distinct : ids.Nodup

theorem Db.Books.opening (books : c.Books) : Opening [] c c where
  books := books
  result := ⟨c.ledger.accounts, rfl⟩
  kept found := found
  new := by simp
  distinct := List.nodup_nil

theorem Opening.account {ids : List Uuid} {account : LedgerAccount} (opening : Opening ids c m)
    (opened : AccountOpened account m b) (uncoded : account.code = none)
    (normal : account.normalBalance = .credit) : Opening (account.id :: ids) c b := by
  obtain ⟨passed, rfl⟩ := opened
  obtain ⟨balance, absent, -⟩ := Ledger.checkNewAccount_ok passed
  have inserted : (m.onLedger (Ledger.insertAccount account)).ledger.accounts.find? account.id =
      some account := Table.find?_insert_self absent
  refine ⟨opening.books.accountOpened.2, ?_, fun found => ?_, fun id member => ?_, ?_⟩
  · obtain ⟨accounts, rfl⟩ := opening.result
    exact ⟨_, rfl⟩
  · exact Table.find?_insert_of_some (opening.kept found)
  · rcases List.mem_cons.mp member with rfl | old
    · refine ⟨?_, account, inserted, uncoded, normal, balance⟩
      by_contra there
      obtain ⟨row, found⟩ := Option.ne_none_iff_exists'.mp there
      rw [opening.kept found] at absent
      cases absent
    · obtain ⟨fresh, row, found, plain⟩ := opening.new id old
      exact ⟨fresh, row, Table.find?_insert_of_some found, plain⟩
  · refine List.nodup_cons.mpr ⟨fun old => ?_, opening.distinct⟩
    obtain ⟨-, row, found, -⟩ := opening.new _ old
    rw [absent] at found
    cases found

/-- A wallet is opened, with three accounts of its own. -/
inductive WalletOpened (c : Db) : Db → Prop
  | intro {wallet : Wallet} {m₁ : Db}
      (opening : Opening [wallet.reservedAccountId, wallet.pendingAccountId, wallet.availableAccountId] c m₁)
      (absent : m₁.wallets.find? wallet.id = none) :
      WalletOpened c (m₁.onWallets (·.insert wallet)).cleared

theorem Accounts.insertWallet {wallets : Table Wallet} {wallet : Wallet}
    (opening : Opening [wallet.reservedAccountId, wallet.pendingAccountId, wallet.availableAccountId] c m)
    (known : Accounts wallets c.ledger.accounts) (absent : wallets.find? wallet.id = none) :
    Accounts (wallets.insert wallet) m.ledger.accounts := by
  have new : ∀ balance, c.ledger.accounts.find? (balanceAccount wallet balance) = none ∧
      ∃ account, m.ledger.accounts.find? (balanceAccount wallet balance) = some account ∧
        account.code = none ∧ account.normalBalance = .credit := by
    intro balance
    obtain ⟨fresh, account, found, uncoded, normal, -⟩ := opening.new (balanceAccount wallet balance)
      (by cases balance <;> simp [balanceAccount])
    exact ⟨fresh, account, found, uncoded, normal⟩
  have apart : ∀ balance balance', balanceAccount wallet balance = balanceAccount wallet balance' →
      balance = balance' := by
    have distinct := opening.distinct
    simp only [List.nodup_cons, List.mem_cons, List.not_mem_nil, or_false, not_or] at distinct
    intro balance balance' same
    cases balance <;> cases balance' <;> simp_all [balanceAccount, eq_comm]
  have foreign : ∀ other ∈ wallets, ∀ balance balance',
      balanceAccount other balance ≠ balanceAccount wallet balance' := by
    intro other member balance balance' same
    obtain ⟨account, found, -⟩ := known.opened other member balance
    rw [same, (new balance').1] at found
    cases found
  have members : ∀ other ∈ wallets.insert wallet, other ∈ wallets ∨ other = wallet :=
    fun other => (Table.mem_insert absent).mp
  constructor
  · intro other member balance
    rcases members other member with old | rfl
    · obtain ⟨account, found, plain⟩ := known.opened other old balance
      exact ⟨account, opening.kept found, plain⟩
    · exact (new balance).2
  · intro first member second member' balance balance' same
    rcases members first member with old | rfl <;> rcases members second member' with old' | rfl
    · exact known.own first old second old' balance balance' same
    · exact (foreign first old _ _ same).elim
    · exact (foreign second old' _ _ same.symm).elim
    · exact ⟨rfl, apart _ _ same⟩

theorem WalletOpened.books (books : c.Books) (opened : WalletOpened c b) : c.Continues b ∧ b.Books := by
  obtain @⟨wallet, m₁, opening, free⟩ := opened
  obtain ⟨accounts, result⟩ := opening.result
  have absent : c.wallets.find? (key wallet) = none := by rwa [result] at free
  have kept : ∀ other ∈ c.wallets, other ∈ c.wallets.insert wallet :=
    fun other member => (Table.mem_insert absent).mpr (.inl member)
  have progress : c.Progress (m₁.onWallets (·.insert wallet)).cleared := by
    have codes : Table.Kept (fun account account' : LedgerAccount => account'.code = account.code)
        c.ledger.accounts m₁.ledger.accounts :=
      fun id account found => ⟨account, opening.kept found, rfl⟩
    rw [result] at codes ⊢
    exact { Db.Progress.refl c with
      wallets := Table.kept_insert Wallet.Continues.refl _ wallet
      codes := codes }
  have linked : (m₁.onWallets (·.insert wallet)).cleared.Linked := by
    have linked := books.linked
    rw [result]
    refine ⟨⟨linked.payments.stored, linked.payments.own⟩, ⟨linked.refunds.stored, linked.refunds.own⟩,
      ⟨linked.payouts.stored, linked.payouts.own⟩, linked.transactionNames, linked.refundNames,
      linked.payoutNames, fun payment member => ?_, linked.refunding, fun payout member => ?_,
      linked.refundStatus, linked.payoutStatus⟩
    · obtain ⟨amount, pending, ⟨other, there, own⟩, fee⟩ := linked.credited payment member
      exact ⟨amount, pending, ⟨other, kept other there, own⟩, fee⟩
    · obtain ⟨amount, fee, other, there, rest⟩ := linked.payingOut payout member
      exact ⟨amount, fee, other, kept other there, rest⟩
  -- no row belongs to the new wallet yet
  have unknown : ∀ other ∈ c.wallets, other.id ≠ wallet.id := fun other member same =>
    Table.find?_eq_none_iff.mp absent other member same
  have pending : c.pendingOf wallet.id = 0 := by
    refine (Table.sum_congr fun payment there => if_neg fun mine => ?_).trans (Table.sum_zero c.payments)
    obtain ⟨-, -, ⟨other, member, own⟩, -⟩ := books.linked.credited payment there
    exact unknown other member (own.trans mine)
  have held : c.heldOf wallet.id = 0 := by
    have refunds : c.refunds.sum (c.refundHold wallet.id) = 0 := by
      refine (Table.sum_congr fun refund there => if_neg fun mine => ?_).trans (Table.sum_zero c.refunds)
      obtain ⟨-, -, -, -, payment, listed, -, same⟩ := books.linked.refunding refund there
      obtain ⟨-, -, ⟨other, member, own⟩, -⟩ := books.linked.credited payment listed
      exact unknown other member (own.trans (same.trans mine.1))
    have payouts : c.payouts.sum (c.payoutHold wallet.id) = 0 := by
      refine (Table.sum_congr fun payout there => if_neg fun mine => ?_).trans (Table.sum_zero c.payouts)
      obtain ⟨-, -, other, member, own, -⟩ := books.linked.payingOut payout there
      exact unknown other member (own.trans mine.1)
    rw [Db.heldOf, refunds, payouts, add_zero]
  have balances := opening.books.balances
  have ledger : m₁.ledger.transactions = c.ledger.transactions ∧ m₁.payments = c.payments ∧
      m₁.refunds = c.refunds ∧ m₁.statusOf = c.statusOf ∧ m₁.pendingOf = c.pendingOf ∧
      m₁.heldOf = c.heldOf ∧ m₁.wallets = c.wallets ∧ m₁.ledger.entries = c.ledger.entries := by
    rw [result]
    exact ⟨rfl, rfl, rfl, rfl, rfl, rfl, rfl, rfl⟩
  obtain ⟨postings, payments, refunds, statuses, pendings, helds, wallets, entries⟩ := ledger
  have journal := opening.books.journal
  have zero : ∀ balance, cachedBalance m₁.ledger.accounts (balanceAccount wallet balance) = 0 := by
    intro balance
    obtain ⟨-, account, found, -, -, nothing⟩ := opening.new (balanceAccount wallet balance)
      (by cases balance <;> simp [balanceAccount])
    rw [cachedBalance, found, Option.elim_some, nothing]
  refine ⟨{ progress with
      successes := Db.successes_of fun refund there now => ⟨refunds ▸ there, statuses ▸ now⟩
      released := fun id used => .inl ?_ }, ⟨linked, ?_, ?_, ?_, ?_, ?_, ?_, ?_⟩⟩
  · obtain ⟨posting, member, same⟩ := used
    exact ⟨posting, postings ▸ member, same⟩
  · have known := Accounts.insertWallet opening books.accounts absent
    rw [← wallets] at known
    exact known
  · refine ⟨⟨journal.indexed.references, journal.indexed.reversals⟩, journal.entries, rfl,
      fun posting member => ?_⟩
    obtain ⟨purpose, name, plain, reference, done⟩ := journal.attributed posting member
    refine ⟨purpose, name, plain, reference, done.progress { Db.Progress.refl m₁ with
      wallets := Table.kept_insert Wallet.Continues.refl _ wallet } linked fun _ payment there _ =>
        ⟨payment, there, rfl, rfl, rfl⟩⟩
  · constructor
    · intro other member
      rcases (Table.mem_insert (wallets.symm ▸ absent)).mp member with old | rfl
      · exact balances.pending other old
      · exact (zero .pending).trans ((congrFun pendings _).trans pending).symm
    · intro other member
      rcases (Table.mem_insert (wallets.symm ▸ absent)).mp member with old | rfl
      · exact balances.reserved other old
      · exact (zero .reserved).trans ((congrFun helds _).trans held).symm
  · exact fun payment member full => opening.books.reversed payment member full
  · exact fun payment member open' => opening.books.uncredited payment member open'
  · intro quote member reference converted
    obtain ⟨name, plain, same, done⟩ := opening.books.consumed quote member reference converted
    exact ⟨name, plain, same, done⟩
  · exact opening.books.fees

end Finstack
