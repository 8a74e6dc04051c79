import Finstack.Soundness.Services.Heedless
import Finstack.Soundness.Services.Holds

/-! # Frozen wallets

In every interleaving of the services' calls a frozen wallet keeps its available balance, and what is
held is still given back.
-/

namespace Finstack.Services

open Foundation Discipline

variable {α : Type} {F : Known} {R : α → Known} {mode : Mode} {held : List RowLock} {c : Db}

/-! ## Opening a wallet, and its status -/

/-- Accounts that a transaction has opened: they are new, and nothing has been posted. -/
structure Opened (ids : List Uuid) (c b : Db) : Prop where
  wallets : b.wallets = c.wallets
  entries : b.ledger.entries = c.ledger.entries
  codes : Db.KeepsCodes c.ledger b.ledger
  new : ∀ id ∈ ids, c.ledger.accounts.find? id = none ∧
    ∃ account, b.ledger.accounts.find? id = some account ∧ account.code = none
  distinct : ids.Nodup

theorem opened_nothing (c : Db) : Opened [] c c where
  wallets := rfl
  entries := rfl
  codes := kept_refl _ fun _ => rfl
  new := by simp
  distinct := List.nodup_nil

theorem Opened.insertAccount {ids : List Uuid} {c m : Db} {account : LedgerAccount}
    (opened : Opened ids c m) (absent : m.ledger.accounts.find? account.id = none)
    (uncoded : account.code = none) :
    Opened (account.id :: ids) c (m.onLedger (Ledger.insertAccount account)) where
  wallets := opened.wallets
  entries := opened.entries
  codes k row found := by
    obtain ⟨row', found', same⟩ := opened.codes k row found
    exact ⟨row', Table.find?_insert_of_some found', same⟩
  new id member := by
    rcases List.mem_cons.mp member with rfl | old
    · refine ⟨?_, account, Table.find?_insert_self absent, uncoded⟩
      by_contra there
      obtain ⟨row, found⟩ := Option.ne_none_iff_exists'.mp there
      obtain ⟨row', found', -⟩ := opened.codes _ row found
      rw [absent] at found'
      cases found'
    · obtain ⟨fresh, row, found, plain⟩ := opened.new id old
      exact ⟨fresh, row, Table.find?_insert_of_some found, plain⟩
  distinct := by
    refine List.nodup_cons.mpr ⟨fun old => ?_, opened.distinct⟩
    obtain ⟨-, row, found, -⟩ := opened.new _ old
    rw [absent] at found
    cases found

/-- A wallet with three accounts of its own joins the others. -/
theorem Opened.insertWallet {c m : Db} {wallet : Wallet} (inv : c.OwnAccounts)
    (opened : Opened [wallet.reservedAccountId, wallet.pendingAccountId, wallet.availableAccountId] c m) :
    MayCommit c (m.onWallets (·.insert wallet)) := by
  have new : ∀ balance, c.ledger.accounts.find? (balanceAccount wallet balance) = none ∧
      ∃ account, m.ledger.accounts.find? (balanceAccount wallet balance) = some account ∧
        account.code = none := by
    intro balance
    refine opened.new _ ?_
    cases balance <;> simp [balanceAccount]
  have apart : ∀ balance balance', balanceAccount wallet balance = balanceAccount wallet balance' →
      balance = balance' := by
    have distinct := opened.distinct
    simp only [List.nodup_cons, List.mem_cons, List.not_mem_nil, or_false, not_or] at distinct
    intro balance balance' same
    cases balance <;> cases balance' <;> simp_all [balanceAccount, eq_comm]
  have old : ∀ other ∈ m.wallets, ∀ balance, ∃ account,
      c.ledger.accounts.find? (balanceAccount other balance) = some account ∧ account.code = none := by
    intro other member
    rw [opened.wallets] at member
    exact inv.opened other member
  have foreign : ∀ other ∈ m.wallets, ∀ balance balance',
      balanceAccount other balance ≠ balanceAccount wallet balance' := by
    intro other member balance balance' same
    obtain ⟨account, found, -⟩ := old other member balance
    rw [same, (new balance').1] at found
    cases found
  refine ⟨⟨?_, ?_⟩, ⟨?_, opened.codes⟩, ?_⟩
  · intro other member balance
    rcases Table.mem_of_mem_insert member with there | rfl
    · obtain ⟨account, found, plain⟩ := old other there balance
      obtain ⟨account', found', same⟩ := opened.codes _ account found
      exact ⟨account', found', same.trans plain⟩
    · exact (new balance).2
  · intro first memberFirst second memberSecond balance balance' same
    rcases Table.mem_of_mem_insert memberFirst with there | rfl <;>
      rcases Table.mem_of_mem_insert memberSecond with there' | rfl
    · rw [opened.wallets] at there there'
      exact inv.own first there second there' balance balance' same
    · exact (foreign first there _ _ same).elim
    · exact (foreign second there' _ _ same.symm).elim
    · exact ⟨rfl, apart _ _ same⟩
  · intro id row found
    rw [← opened.wallets] at found
    exact ⟨row, Table.find?_insert_of_some found, fun _ => rfl⟩
  · intro other _ _
    simp only [Db.debitsOn, Ledger.entriesOn, Db.onWallets, opened.entries]

namespace WalletsService

theorem leads_createAccount {ids : List Uuid} (id : Uuid) (purpose currency : String) :
    moneyDiscipline.Leads Guarantee .inside (Opened ids) F
      (Finstack.LedgerService.createAccount id (Wallets.accountInput purpose currency))
      (fun account => Opened (account.id :: ids)) fun _ => F := by
  let account := Finstack.LedgerService.newAccount id (Wallets.accountInput purpose currency)
  refine Leads.bind (U := fun _ => Opened (account.id :: ids)) (R := fun _ => F)
    (leads_statement (P := fun _ db => db.ledger.checkNewAccount account = .ok ()) ?_ ?_
      fun _ _ _ _ _ _ _ known _ => known)
    fun _ => leads_pure (U := fun (account : LedgerAccount) => Opened (account.id :: ids))
      (R := fun _ => F)
  · intro _ write m done
    rw [same_of_databaseCheck done]
    refine ⟨writes_insertAccount account,
      guarded_checkNewAccount account (.ok ()), ?_⟩
    cases checked : m.ledger.checkNewAccount account with
    | error e => simp [databaseCheck, checked, account] at done
    | ok _ => rfl
  · intro _ write m' _ c m done _ _ opened checked
    rw [same_of_databaseCheck done]
    exact opened.insertAccount (Ledger.checkNewAccount_ok checked).2.1 rfl

theorem spares_insertWallet (fresh : Fresh) (owner : Owner) (currency : String)
    (primary : Option Bool) :
    Spares .outside F (insertWallet fresh owner currency primary) fun _ => Fact.nothing := by
  refine leads_inTransaction (R := fun _ => F) (Leads.since (T := Opened []) ?_ ?_)
  · rintro c b - rfl
    exact opened_nothing c
  have rest : ∀ isPrimary : Bool, moneyDiscipline.Leads Guarantee .inside (Opened []) F (do
      let account := fun (id : Uuid) (purpose : String) =>
        Finstack.LedgerService.createAccount id (Wallets.accountInput purpose currency)
      let available ← account (fresh 0) "available"
      let pending ← account (fresh 1) "pending"
      let reserved ← account (fresh 2) "reserved"
      let wallet : Wallet := ⟨fresh 3, owner, currency, .active, isPrimary, available.id, pending.id,
        reserved.id⟩
      save (Db.walletLocks wallet) (Db.checkNewWallet wallet) (Db.onWallets (·.insert wallet))
      pure wallet) (fun _ => MayCommit) fun _ => F := by
    intro isPrimary
    refine (leads_createAccount _ _ _).bind fun available => (leads_createAccount _ _ _).bind
      fun pending => (leads_createAccount _ _ _).bind fun reserved => Leads.bind
        (U := fun _ => MayCommit) (R := fun _ => F) (leads_statement (P := fun _ _ => True) ?_ ?_
          fun _ _ _ _ _ _ _ known _ => known)
        fun _ => leads_pure (U := fun _ => MayCommit) (R := fun _ => F)
    · intro _ write m done
      rw [same_of_databaseCheck done]
      exact ⟨writes_insertWallet _, fun _ _ _ _ => trivial, trivial⟩
    · intro _ write m' _ c m done inv _ opened _
      rw [same_of_databaseCheck done]
      exact opened.insertWallet inv
  cases primary with
  | some isPrimary => exact rest isPrimary
  | none =>
    exact Leads.bind (U := fun _ => Opened []) (R := fun _ => F)
      (leads_query fun _ _ _ _ _ known => known) rest

/-- A status moves no money. -/
theorem spares_setWalletStatus (walletId : Uuid) (change : AdminService.WalletStatusChange) :
    Spares .outside F (AdminService.setWalletStatus walletId change) fun _ => Fact.nothing := by
  refine (spares_getWallet walletId).bind fun wallet => ?_
  split_ifs
  · exact spares_throw
  · exact spares_throw
  refine leads_inTransaction (leads_execute (writes_setStatus walletId change.status) ?_)
  rintro _ c _ inv - rfl
  have keeps : ∀ wallet : Wallet, key { wallet with status := change.status } = key wallet :=
    fun _ => rfl
  have origin : ∀ wallet ∈ (c.wallets.modify walletId fun wallet =>
      { wallet with status := change.status }), ∃ before ∈ c.wallets, before.id = wallet.id ∧
        ∀ balance, balanceAccount wallet balance = balanceAccount before balance := by
    refine Table.forall_mem_modify keeps (fun wallet member => ⟨wallet, member, rfl, fun _ => rfl⟩) ?_
    exact fun wallet member _ => ⟨wallet, member, rfl, fun balance => by cases balance <;> rfl⟩
  refine ⟨⟨?_, ?_⟩, ⟨?_, kept_refl _ fun _ => rfl⟩, fun _ _ _ => rfl⟩
  · intro wallet member balance
    obtain ⟨before, there, -, same⟩ := origin wallet member
    rw [same balance]
    exact inv.opened before there balance
  · intro first member second member' balance balance' shared
    obtain ⟨before, there, own, same⟩ := origin first member
    obtain ⟨before', there', own', same'⟩ := origin second member'
    obtain ⟨rfl, rfl⟩ := inv.own before there before' there' balance balance'
      ((same balance).symm.trans (shared.trans (same' balance')))
    exact ⟨Table.eq_of_key member member' (own.symm.trans own'), rfl⟩
  · exact Table.kept_modify (fun _ => rfl) (fun _ balance => by cases balance <;> rfl) fun _ _ => rfl

end WalletsService

/-! ## Every call -/

theorem spares_unanswered {call : DbTxn α} (spares : Spares .outside F call fun _ => Fact.nothing) :
    Spares .outside F (unanswered call) fun _ => Fact.nothing :=
  spares.bind fun _ => spares_stay

theorem Release.spares (hold : Release) :
    Spares .outside Fact.nothing hold.run fun _ => Fact.nothing := by
  cases hold with
  | failPayout => exact PayoutsService.spares_fail _ _ _ _
  | failRefund => exact RefundsService.spares_fail _ _ _ _
  | endSettlementHold => exact spares_unanswered (SettlementReleaseService.spares_release _ _ _)

theorem ServiceCall.spares (call : ServiceCall) :
    Spares .outside Fact.nothing call.run fun _ => Fact.nothing := by
  cases call with
  | openWallet => exact spares_unanswered (WalletsService.spares_insertWallet _ _ _ _)
  | setWalletStatus => exact WalletsService.spares_setWalletStatus _ _
  | deposit => exact spares_unanswered (WalletsService.spares_deposit _ _ _)
  | withdraw => exact spares_unanswered (WalletsService.spares_withdraw _ _ _)
  | transferWallets => exact spares_unanswered (WalletsService.spares_transfer _ _ _ _)
  | reserve => exact spares_unanswered (WalletsService.spares_reserve _ _ _)
  | releaseReserved => exact spares_unanswered (WalletsService.spares_release _ _ _)
  | depositWithConversion =>
    exact spares_unanswered (WalletsService.spares_depositWithConversion _ _ _)
  | convertBetweenWallets =>
    exact spares_unanswered (WalletsService.spares_convertBetweenWallets _ _ _ _ _)
  | transfer => exact spares_unanswered (TransfersService.spares_transfer _ _ _ _)
  | creditPayment => exact spares_unanswered (PaymentSettlementService.spares_credit _ _ _)
  | failPayment => exact spares_unanswered (PaymentSettlementService.spares_fail _ _ _)
  | requestPayout => exact spares_unanswered (PayoutsService.spares_request _ _ _ _)
  | completePayout => exact PayoutsService.spares_complete _ _
  | reversePayout => exact PayoutsService.spares_reverse _ _
  | requestRefund => exact spares_unanswered (RefundsService.spares_request _ _ _ _ _)
  | completeRefund => exact RefundsService.spares_complete _ _
  | release hold => exact hold.spares

/-! ## Every run -/

section EveryRun

variable {ι : Type} [DecidableEq ι] {db : Db} {calls : ι → ServiceCall}
  {σ : Config Db RowLock ι (Except Err Unit)}

theorem sound_of_reaches (own : db.OwnAccounts)
    (run : Config.Reaches Db.Tick (Config.start db fun i => (calls i).run) σ) :
    Config.Sound (fun _ => moneyDiscipline) (fun _ => Guarantee) (fun _ _ _ _ _ => True) σ := by
  have start : Config.Sound (fun _ => moneyDiscipline) (fun _ => Guarantee) (fun _ _ _ _ _ => True)
      (Config.start db fun i => (calls i).run) :=
    .start (fun _ => own) fun i => (calls i).spares.safe own trivial
  have compatible : Config.Compatible (fun _ : Option ι => moneyDiscipline) (fun _ => Guarantee)
      fun _ (_ : Except Err Unit) _ _ _ => True :=
    ⟨fun _ _ _ _ _ _ inv' guaranteed => ⟨guaranteed.1, inv'⟩, fun _ _ _ _ _ _ _ _ => trivial⟩
  have respects : Config.Respects (fun _ : Option ι => moneyDiscipline) Db.Tick := by
    rintro c c' inv ⟨clock, _, rfl⟩
    have unchanged : c.KeepsAccounts { c with clock } :=
      ⟨kept_refl _ fun _ _ => rfl, kept_refl _ fun _ => rfl⟩
    exact ⟨fun j => ⟨unchanged, (inv j).opened, (inv j).own⟩, fun l => by cases l <;> rfl⟩
  exact start.reaches compatible respects run

end EveryRun

/-! ## A freeze while a payment is on hold -/

def balanceOf (id : Uuid) (purpose : String) (balance : Int) : LedgerAccount where
  __ := Finstack.LedgerService.newAccount id (Wallets.accountInput purpose "NGN")
  balance := balance

def payerWallet : Wallet := ⟨20, .user 1, "NGN", .active, true, 11, 12, 13⟩

def heldPayment : Payment where
  id := 30
  transactionId := 31
  owner := .user 1
  walletId := 20
  provider := "paystack"
  amount := 500
  currency := "NGN"
  fxQuoteId := none
  pendingAmount := 500

/-- A payment of 500 has been credited and is on hold. -/
def onHold : Db where
  __ := Db.empty
  ledger := ((Ledger.empty.insertAccount (balanceOf 11 "available" 0)).insertAccount
    (balanceOf 12 "pending" 500)).insertAccount (balanceOf 13 "reserved" 0)
  wallets := Table.empty.insert payerWallet
  payments := Table.empty.insert heldPayment

/-- The freeze, the end of the settlement hold, and a withdrawal. -/
def freezeCalls : Fin 3 → ServiceCall
  | 0 => .setWalletStatus 20 .frozen
  | 1 => .release (.endSettlementHold 40 30 false)
  | 2 => .withdraw (fun n => Fin.ofNat _ (50 + n)) 20 ⟨500, "withdrawal:1", "Withdrawal"⟩

theorem onHold_ownAccounts : onHold.OwnAccounts where
  opened wallet member balance := by
    obtain rfl := List.mem_singleton.mp member
    cases balance <;> exact ⟨_, rfl, rfl⟩
  own wallet member other member' balance balance' same := by
    obtain rfl := List.mem_singleton.mp member
    obtain rfl := List.mem_singleton.mp member'
    revert same
    cases balance <;> cases balance' <;> decide

end Finstack.Services
