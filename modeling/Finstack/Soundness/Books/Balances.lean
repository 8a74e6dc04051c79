import Finstack.Soundness.Books.Writes

/-! # What postings do to balances

The net of a posting's entries on an account, and the accounts and balances that a posting leaves.
-/

namespace Finstack

open Foundation Services LedgerService

/-! ## Nets -/

/-- An amount as it moves a balance that grows with credits. -/
def EntryDirection.gain (amount : Int) : EntryDirection → Int
  | .credit => amount
  | .debit => -amount

/-- What these entries together credit to an account. -/
def net (entries : List PostingEntry) (accountId : Uuid) : Int :=
  (entries.map fun entry =>
    if entry.accountId = accountId then entry.direction.gain entry.amount else 0).sum

@[simp] theorem net_nil (accountId : Uuid) : net [] accountId = 0 := rfl

@[simp] theorem net_cons (entry : PostingEntry) (rest : List PostingEntry) (accountId : Uuid) :
    net (entry :: rest) accountId =
      (if entry.accountId = accountId then entry.direction.gain entry.amount else 0) +
        net rest accountId := by
  simp [net]

@[simp] theorem net_append (first second : List PostingEntry) (accountId : Uuid) :
    net (first ++ second) accountId = net first accountId + net second accountId := by
  simp [net]

theorem net_eq_zero {entries : List PostingEntry} {accountId : Uuid}
    (others : ∀ entry ∈ entries, entry.accountId ≠ accountId) : net entries accountId = 0 := by
  refine List.sum_eq_zero fun value member => ?_
  obtain ⟨entry, listed, rfl⟩ := List.mem_map.mp member
  exact if_neg (others entry listed)

theorem delta_of_credit {account : LedgerAccount} (normal : account.normalBalance = .credit)
    (entries : List PostingEntry) : delta account entries = net entries account.id := by
  unfold delta net
  refine congrArg List.sum (List.map_congr_left fun entry _ => if_congr Iff.rfl ?_ rfl)
  cases direction : entry.direction <;> simp [LedgerAccount.signed, normal, EntryDirection.gain]

theorem net_move (currency : String) (movement : MoneyMovement) (debited credited accountId : Uuid) :
    net (WalletsService.move currency movement debited credited).entries accountId =
      (if credited = accountId then movement.amount else 0) -
        if debited = accountId then movement.amount else 0 := by
  simp only [WalletsService.move, net_cons, net_nil, EntryDirection.gain]
  split_ifs <;> omega

/-- Both sources together give what the hold takes, or get it back. -/
theorem net_splitEntries (wallet : Wallet) {amount fromPending : Int} (side : EntryDirection)
    (nonneg : 0 ≤ fromPending) (within : fromPending ≤ amount) (accountId : Uuid) :
    net (WalletsService.splitEntries wallet amount fromPending side) accountId =
      (if wallet.pendingAccountId = accountId then side.gain fromPending else 0) +
        (if wallet.availableAccountId = accountId then side.gain (amount - fromPending) else 0) +
        if wallet.reservedAccountId = accountId then side.opposite.gain amount else 0 := by
  have part : ∀ (id : Uuid) (value : Int), 0 ≤ value →
      net (if value > 0 then [⟨id, side, value⟩] else []) accountId =
        if id = accountId then side.gain value else 0 := by
    intro id value nonneg
    split_ifs with positive same same
    · simp [same]
    · simp [same]
    · obtain rfl : value = 0 := by omega
      cases side <;> rfl
    · rfl
  simp only [WalletsService.splitEntries, net_append, part _ _ nonneg,
    part _ (amount - fromPending) (by omega), net_cons, net_nil, add_zero]

variable {wallets : Table Wallet} {ledger : Ledger} {id : Uuid} {input : PostingInput} {amount : Int}

/-! ## Accounts -/

namespace Accounts

variable {accounts : Table LedgerAccount}

/-- Wallets' accounts are not the platform's. -/
theorem ne_system (known : Accounts wallets accounts) {wallet : Wallet} (member : wallet ∈ wallets)
    (balance : WalletBalance) {accountId : Uuid} {account : LedgerAccount} {code : String}
    (found : accounts.find? accountId = some account) (coded : account.code = some code) :
    accountId ≠ balanceAccount wallet balance := by
  rintro rfl
  obtain ⟨own, there, none, -⟩ := known.opened wallet member balance
  obtain rfl := Option.some.inj (found.symm.trans there)
  rw [none] at coded
  cases coded

theorem same_iff (known : Accounts wallets accounts) {wallet other : Wallet} (member : wallet ∈ wallets)
    (member' : other ∈ wallets) {balance balance' : WalletBalance} :
    balanceAccount wallet balance = balanceAccount other balance' ↔
      wallet.id = other.id ∧ balance = balance' := by
  constructor
  · intro same
    obtain ⟨rfl, rfl⟩ := known.own wallet member other member' balance balance' same
    exact ⟨rfl, rfl⟩
  · rintro ⟨same, rfl⟩
    obtain rfl := Table.eq_of_key member member' same
    rfl

/-- A posting changes balances only. -/
theorem posted (known : Accounts wallets ledger.accounts) :
    Accounts wallets (posted id input amount ledger).accounts where
  opened wallet member balance := by
    obtain ⟨account, found, code, normal⟩ := known.opened wallet member balance
    refine ⟨account.credited (delta account input.entries), ?_, code, normal⟩
    rw [posted_account, found, Option.map_some]
  own := known.own

/-- Opening an account leaves the others. -/
theorem insert (known : Accounts wallets accounts) (account : LedgerAccount) :
    Accounts wallets (accounts.insert account) where
  opened wallet member balance := by
    obtain ⟨own, found, code, normal⟩ := known.opened wallet member balance
    exact ⟨own, Table.find?_insert_of_some found, code, normal⟩
  own := known.own

/-- A wallet's balance moves by the net of the entries. -/
theorem cachedBalance_posted (known : Accounts wallets ledger.accounts) {wallet : Wallet}
    (member : wallet ∈ wallets) (balance : WalletBalance) :
    cachedBalance (LedgerService.posted id input amount ledger).accounts (balanceAccount wallet balance) =
      cachedBalance ledger.accounts (balanceAccount wallet balance) +
        net input.entries (balanceAccount wallet balance) := by
  obtain ⟨account, found, -, normal⟩ := known.opened wallet member balance
  rw [cachedBalance, cachedBalance, posted_account, found, Option.map_some, Option.elim_some,
    Option.elim_some, LedgerAccount.credited, delta_of_credit normal]
  exact congrArg (account.balance + net input.entries ·) (Table.find?_some found).2

end Accounts

/-! ## What a wallet gains -/

/-- The wallet's pending and reserved balances grow by this much, and no other wallet's. -/
structure Gains (wallets : Table Wallet) (walletId : Uuid) (pending reserved : Int)
    (accounts accounts' : Table LedgerAccount) : Prop where
  pending : ∀ wallet ∈ wallets, cachedBalance accounts' wallet.pendingAccountId =
    cachedBalance accounts wallet.pendingAccountId + if walletId = wallet.id then pending else 0
  reserved : ∀ wallet ∈ wallets, cachedBalance accounts' wallet.reservedAccountId =
    cachedBalance accounts wallet.reservedAccountId + if walletId = wallet.id then reserved else 0

namespace Gains

variable {walletId : Uuid} {pending reserved pending' reserved' : Int}
  {accounts accounts' accounts'' : Table LedgerAccount}

theorem refl : Gains wallets walletId 0 0 accounts accounts where
  pending wallet _ := by rw [ite_self, add_zero]
  reserved wallet _ := by rw [ite_self, add_zero]

theorem trans (first : Gains wallets walletId pending reserved accounts accounts')
    (second : Gains wallets walletId pending' reserved' accounts' accounts'') :
    Gains wallets walletId (pending + pending') (reserved + reserved') accounts accounts'' where
  pending wallet member := by
    rw [second.pending wallet member, first.pending wallet member]
    split_ifs <;> ring
  reserved wallet member := by
    rw [second.reserved wallet member, first.reserved wallet member]
    split_ifs <;> ring

/-- A posting between the accounts of one wallet and of the platform. -/
theorem posted (known : Accounts wallets ledger.accounts) {wallet : Wallet} (member : wallet ∈ wallets)
    (mine : ∀ entry ∈ input.entries, (∃ balance, entry.accountId = balanceAccount wallet balance) ∨
      ∃ account code, ledger.accounts.find? entry.accountId = some account ∧ account.code = some code)
    (moves : net input.entries wallet.pendingAccountId = pending ∧
      net input.entries wallet.reservedAccountId = reserved) :
    Gains wallets wallet.id pending reserved ledger.accounts
      (LedgerService.posted id input amount ledger).accounts := by
  have gain : ∀ other ∈ wallets, ∀ balance, net input.entries (balanceAccount other balance) =
      if wallet.id = other.id then net input.entries (balanceAccount wallet balance) else 0 := by
    intro other member' balance
    split_ifs with same
    · rw [Table.eq_of_key member member' same]
    · refine net_eq_zero fun entry listed => ?_
      rcases mine entry listed with ⟨balance', own⟩ | ⟨account, code, found, coded⟩
      · rw [own, Ne, known.same_iff member member']
        exact fun both => same both.1
      · exact known.ne_system member' balance found coded
  constructor
  · intro other member'
    rw [← moves.1]
    exact (known.cachedBalance_posted member' .pending).trans (congrArg _ (gain other member' .pending))
  · intro other member'
    rw [← moves.2]
    exact (known.cachedBalance_posted member' .reserved).trans (congrArg _ (gain other member' .reserved))

/-- From one balance of a wallet to another. -/
theorem moved (known : Accounts wallets ledger.accounts) {wallet : Wallet} (member : wallet ∈ wallets)
    (source target : WalletBalance) {currency : String} {movement : MoneyMovement}
    (is : input = WalletsService.move currency movement (balanceAccount wallet source)
      (balanceAccount wallet target)) :
    Gains wallets wallet.id
      ((if target = .pending then movement.amount else 0) -
        if source = .pending then movement.amount else 0)
      ((if target = .reserved then movement.amount else 0) -
        if source = .reserved then movement.amount else 0)
      ledger.accounts (LedgerService.posted id input amount ledger).accounts := by
  subst is
  have same : ∀ {x y}, balanceAccount wallet x = balanceAccount wallet y ↔ x = y := by
    intro x y
    rw [known.same_iff member member]
    simp
  refine posted known member (fun entry listed => .inl ?_) ⟨?_, ?_⟩
  · rcases List.mem_pair.mp listed with rfl | rfl
    · exact ⟨source, rfl⟩
    · exact ⟨target, rfl⟩
  · rw [net_move]
    exact congrArg₂ _ (if_congr (same (y := .pending)) rfl rfl) (if_congr (same (y := .pending)) rfl rfl)
  · rw [net_move]
    exact congrArg₂ _ (if_congr (same (y := .reserved)) rfl rfl)
      (if_congr (same (y := .reserved)) rfl rfl)

/-- Between one balance of a wallet and accounts of the platform. -/
theorem exchanged (known : Accounts wallets ledger.accounts) {wallet : Wallet}
    (member : wallet ∈ wallets) (balance : WalletBalance) {entry : PostingEntry}
    {rest : List PostingEntry} (entries : input.entries.Perm (entry :: rest))
    (own : entry.accountId = balanceAccount wallet balance)
    (others : ∀ other ∈ rest, ∃ account code,
      ledger.accounts.find? other.accountId = some account ∧ account.code = some code) :
    Gains wallets wallet.id
      (if balance = .pending then entry.direction.gain entry.amount else 0)
      (if balance = .reserved then entry.direction.gain entry.amount else 0)
      ledger.accounts (LedgerService.posted id input amount ledger).accounts := by
  have nets : ∀ y, net input.entries (balanceAccount wallet y) =
      if balance = y then entry.direction.gain entry.amount else 0 := by
    intro y
    have rest0 : net rest (balanceAccount wallet y) = 0 := by
      refine net_eq_zero fun other listed => ?_
      obtain ⟨account, code, found, coded⟩ := others other listed
      exact known.ne_system member y found coded
    have perm : net input.entries (balanceAccount wallet y) =
        net (entry :: rest) (balanceAccount wallet y) := (entries.map _).sum_eq
    rw [perm, net_cons, rest0, add_zero, own]
    refine if_congr ?_ rfl rfl
    rw [known.same_iff member member]
    simp
  refine posted known member (fun other listed => ?_) ⟨nets .pending, nets .reserved⟩
  rcases List.mem_cons.mp (entries.mem_iff.mp listed) with rfl | system
  · exact .inl ⟨balance, own⟩
  · exact .inr (others other system)

/-- Between accounts of the platform and available balances. -/
theorem elsewhere (known : Accounts wallets ledger.accounts)
    (others : ∀ other ∈ input.entries,
      (∃ wallet ∈ wallets, other.accountId = balanceAccount wallet .available) ∨
        ∃ account code, ledger.accounts.find? other.accountId = some account ∧
          account.code = some code) :
    Gains wallets walletId 0 0 ledger.accounts
      (LedgerService.posted id input amount ledger).accounts := by
  have nothing : ∀ wallet ∈ wallets, ∀ balance, balance ≠ .available →
      net input.entries (balanceAccount wallet balance) = 0 := by
    intro wallet member balance held
    refine net_eq_zero fun other listed => ?_
    rcases others other listed with ⟨owner, there, own⟩ | ⟨account, code, found, coded⟩
    · rw [own, Ne, known.same_iff there member]
      exact fun both => held both.2.symm
    · exact known.ne_system member balance found coded
  constructor
  · intro wallet member
    rw [ite_self, ← nothing wallet member .pending (by simp)]
    exact known.cachedBalance_posted member .pending
  · intro wallet member
    rw [ite_self, ← nothing wallet member .reserved (by simp)]
    exact known.cachedBalance_posted member .reserved

/-- Between two balances of a wallet and its reserved one. -/
theorem split (known : Accounts wallets ledger.accounts) {wallet : Wallet} (member : wallet ∈ wallets)
    {total fromPending : Int} {side : EntryDirection} (nonneg : 0 ≤ fromPending)
    (within : fromPending ≤ total)
    (entries : input.entries = WalletsService.splitEntries wallet total fromPending side) :
    Gains wallets wallet.id (side.gain fromPending) (side.opposite.gain total) ledger.accounts
      (LedgerService.posted id input amount ledger).accounts := by
  have same : ∀ {x y}, balanceAccount wallet x = balanceAccount wallet y ↔ x = y := by
    intro x y
    rw [known.same_iff member member]
    simp
  have pa := same (x := .pending) (y := .available)
  have pr := same (x := .pending) (y := .reserved)
  have ap := same (x := .available) (y := .pending)
  have ar := same (x := .available) (y := .reserved)
  have rp := same (x := .reserved) (y := .pending)
  simp only [balanceAccount, reduceCtorEq, iff_false] at pa pr ap ar rp
  refine posted known member (fun entry listed => .inl ?_) ⟨?_, ?_⟩
  · simp only [entries, WalletsService.splitEntries, List.mem_append, List.mem_ite_nil_right,
      List.mem_singleton] at listed
    rcases listed with (⟨-, rfl⟩ | ⟨-, rfl⟩) | rfl
    · exact ⟨.pending, rfl⟩
    · exact ⟨.available, rfl⟩
    · exact ⟨.reserved, rfl⟩
  · rw [entries, net_splitEntries wallet side nonneg within, if_pos rfl, if_neg ap, if_neg rp]
    ring
  · rw [entries, net_splitEntries wallet side nonneg within, if_neg pr, if_neg ar, if_pos rfl]
    ring

end Gains

end Finstack
