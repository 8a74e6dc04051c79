import Finstack.Foundation.Facts
import Finstack.Model.Services.Calls
import Finstack.Soundness.Ledger.Consistency
import Finstack.Soundness.Ledger.Guards
import Finstack.Soundness.Services.Recorded

/-! # What a frozen wallet keeps

No commit takes money from the available balance of a wallet that is not active. Each movement takes
from accounts of which it knows, when it commits, that they are nobody's available balance, or the
balance of a wallet it has locked and found active.
-/

namespace Finstack

open Foundation Discipline

namespace Db

/-- Each balance of a wallet is an account of its own; accounts with a code are the platform's. -/
structure OwnAccounts (db : Db) : Prop where
  opened : ∀ wallet ∈ db.wallets, ∀ balance, ∃ account,
    db.ledger.accounts.find? (balanceAccount wallet balance) = some account ∧ account.code = none
  own : ∀ wallet ∈ db.wallets, ∀ other ∈ db.wallets, ∀ balance balance',
    balanceAccount wallet balance = balanceAccount other balance' →
      wallet = other ∧ balance = balance'

/-- What has been taken from an account. -/
def debitsOn (db : Db) (accountId : Uuid) : List LedgerEntry :=
  (db.ledger.entriesOn accountId).filter fun entry => entry.direction = .debit

/-- Accounts keep their codes. -/
abbrev KeepsCodes (ledger ledger' : Ledger) : Prop :=
  Table.Kept (fun account account' => account'.code = account.code) ledger.accounts ledger'.accounts

/-- Wallets keep their accounts, and accounts their codes. -/
structure KeepsAccounts (c c' : Db) : Prop where
  wallets : Table.Kept (fun wallet wallet' => ∀ balance,
    balanceAccount wallet' balance = balanceAccount wallet balance) c.wallets c'.wallets
  codes : KeepsCodes c.ledger c'.ledger

/-- Nothing is taken from the available balance of a wallet that is not active. -/
def SparesFrozen (c c' : Db) : Prop :=
  ∀ wallet ∈ c.wallets, wallet.status ≠ .active →
    c'.debitsOn wallet.availableAccountId = c.debitsOn wallet.availableAccountId

end Db

open Db

theorem kept_refl {R K : Type} [Keyed R K] [DecidableEq K] {same : R → R → Prop} (t : Table R)
    (refl : ∀ row, same row row) : Table.Kept same t t :=
  fun _ row found => ⟨row, found, refl row⟩

namespace Services

/-- What everybody relies on. -/
def moneyDiscipline : Discipline Db where
  inv := OwnAccounts
  change c c' := c.KeepsAccounts c' ∧ c'.OwnAccounts
  inv_change _ change := change.2

/-- What each call guarantees. -/
def Guarantee (c c' : Db) : Prop := c.KeepsAccounts c' ∧ c.SparesFrozen c'

abbrev Known := Fact moneyDiscipline

variable {α β : Type} {F : Known} {R : α → Known} {mode : Mode} {held : List RowLock} {c : Db}

/-! ## What calls know -/

/-- The wallet is stored, with these accounts. -/
def knowsWallet (wallet : Wallet) : Known :=
  .ofStable (fun db => ∃ row, db.wallets.find? wallet.id = some row ∧ ∀ balance,
      balanceAccount row balance = balanceAccount wallet balance) (by
    rintro c c' - ⟨keeps, -⟩ ⟨row, found, same⟩
    obtain ⟨row', found', same'⟩ := keeps.wallets _ row found
    exact ⟨row', found', fun balance => (same' balance).trans (same balance)⟩)

/-- The account is one of the platform's. -/
def knowsSystemAccount (id : Uuid) : Known :=
  .ofStable (fun db => ∃ account, db.ledger.accounts.find? id = some account ∧ account.code ≠ none) (by
    rintro c c' - ⟨keeps, -⟩ ⟨account, found, coded⟩
    obtain ⟨account', found', same⟩ := keeps.codes _ account found
    exact ⟨account', found', same ▸ coded⟩)

/-- These wallets are locked, and none is frozen or closed. -/
def knowsActive (ids : List Uuid) : Known where
  holds held c := ∀ id ∈ ids, RowLock.wallet id true ∈ held ∧
    ∀ wallet, c.wallets.find? id = some wallet → wallet.status = .active
  keeps := by
    rintro held c c' ⟨-, -, same⟩ known id member
    obtain ⟨locked, active⟩ := known id member
    refine ⟨locked, fun wallet found => active wallet ?_⟩
    have guarded := same _ locked
    simp only [Db.same_observed, Db.observe, Db.Observed.wallet.injEq] at guarded
    rw [guarded, found]
  more subset known id member := ⟨subset _ (known id member).1, (known id member).2⟩

/-- Nobody's available balance, or that of an active wallet. -/
def MayPay (c : Db) (accountId : Uuid) : Prop :=
  ∀ wallet ∈ c.wallets, wallet.availableAccountId = accountId → wallet.status = .active

theorem mayPay_available {wallet : Wallet} {ids : List Uuid} (inv : c.OwnAccounts)
    (stored : (knowsWallet wallet).holds held c) (active : (knowsActive ids).holds held c)
    (member : wallet.id ∈ ids) : MayPay c wallet.availableAccountId := by
  obtain ⟨row, found, same⟩ := stored
  intro other there shared
  have mine := (Table.find?_some found).1
  obtain ⟨rfl, -⟩ := inv.own other there row mine .available .available
    (shared.trans (same .available).symm)
  exact (active _ member).2 other found

theorem mayPay_held {wallet : Wallet} (balance : WalletBalance) (inv : c.OwnAccounts)
    (stored : (knowsWallet wallet).holds held c) (apart : balance ≠ .available) :
    MayPay c (balanceAccount wallet balance) := by
  obtain ⟨row, found, same⟩ := stored
  intro other there shared
  obtain ⟨-, rfl⟩ := inv.own other there row (Table.find?_some found).1 .available balance
    (shared.trans (same balance).symm)
  exact (apart rfl).elim

theorem mayPay_system {id : Uuid} (inv : c.OwnAccounts)
    (system : (knowsSystemAccount id).holds held c) : MayPay c id := by
  obtain ⟨account, found, coded⟩ := system
  intro other there rfl
  obtain ⟨account', found', uncoded⟩ := inv.opened other there .available
  obtain rfl := Option.some.inj (found.symm.trans found')
  exact (coded uncoded).elim

/-! ## What transactions do -/

/-- What a transaction has done if it only takes from accounts that may pay. -/
structure Sparing (c b : Db) : Prop where
  wallets : b.wallets = c.wallets
  codes : KeepsCodes c.ledger b.ledger
  debits : ∀ id, b.debitsOn id ≠ c.debitsOn id → MayPay c id

theorem Sparing.refl (c : Db) : Sparing c c where
  wallets := rfl
  codes := kept_refl _ fun _ => rfl
  debits _ changed := (changed rfl).elim

/-- A statement that writes neither wallets nor entries. -/
theorem Sparing.aside {c m b : Db} (sparing : Sparing c m) (wallets : b.wallets = m.wallets)
    (entries : b.ledger.entries = m.ledger.entries) (codes : KeepsCodes m.ledger b.ledger) :
    Sparing c b where
  wallets := wallets.trans sparing.wallets
  codes k row found := by
    obtain ⟨row', found', same⟩ := sparing.codes k row found
    obtain ⟨row'', found'', same'⟩ := codes k row' found'
    exact ⟨row'', found'', same'.trans same⟩
  debits id changed := sparing.debits id (by simpa only [debitsOn, Ledger.entriesOn, entries] using changed)

/-- What a transaction may commit. -/
def MayCommit (c b : Db) : Prop := b.OwnAccounts ∧ Guarantee c b

theorem Sparing.mayCommit {c b : Db} (inv : c.OwnAccounts) (sparing : Sparing c b) :
    MayCommit c b := by
  refine ⟨⟨?_, ?_⟩, ⟨?_, sparing.codes⟩, ?_⟩
  · intro wallet member balance
    rw [sparing.wallets] at member
    obtain ⟨account, found, uncoded⟩ := inv.opened wallet member balance
    obtain ⟨account', found', same⟩ := sparing.codes _ account found
    exact ⟨account', found', same.trans uncoded⟩
  · rw [sparing.wallets]
    exact inv.own
  · rw [sparing.wallets]
    exact kept_refl _ fun _ _ => rfl
  · intro wallet member frozen
    by_contra changed
    exact frozen (sparing.debits _ changed wallet member rfl)

/-- Code that takes nothing from a frozen wallet where it knows `F`, and then knows `R`. -/
abbrev Spares (mode : Mode) (F : Known) (x : DbTxn α) (R : α → Known) : Prop :=
  moneyDiscipline.Leads Guarantee mode Sparing F x (fun _ => Sparing) R

/-- Less may be known afterwards. -/
theorem spares_mono {x : DbTxn α} {R' : α → Known} (spares : Spares mode F x R)
    (after : ∀ a held c, c.OwnAccounts → (R a).holds held c → (R' a).holds held c) :
    Spares mode F x R' :=
  spares.mono (fun _ _ _ known => known) after

theorem spares_pure {a : α}
    (known : ∀ held c, c.OwnAccounts → F.holds held c → (R a).holds held c) :
    Spares mode F (pure a) R :=
  Leads.mono known (fun _ _ _ _ known => known) (leads_pure (U := fun _ => Sparing))

theorem spares_stay {a : α} : Spares mode F (pure a) fun _ => F := spares_pure fun _ _ _ known => known

theorem spares_throw {e : Err} : Spares mode F (Txn.throw e : DbTxn α) R := leads_throw

theorem spares_ret {result : Except Err α} : Spares mode F (Prog.ret result) fun _ => F :=
  leads_ret fun _ _ => ⟨fun _ _ known => known, rfl⟩

theorem spares_check {result : Except Err Unit} : Spares mode F (check result) fun _ => F := spares_ret

theorem spares_orFail {entity : String} {found : Option α} :
    Spares mode F (orFail entity found) fun _ => F := by
  cases found
  · exact spares_throw
  · exact spares_stay

theorem spares_orThrow {e : Err} {found : Option α} :
    Spares mode F (orThrow e found) fun _ => F := by
  cases found
  · exact spares_throw
  · exact spares_stay

theorem spares_orThrow_each {e : Err} {found : Option α} {K : α → Known} :
    Spares mode (F.and (Fact.each found K)) (orThrow e found) fun a => F.and (K a) := by
  cases found
  · exact spares_throw
  · exact spares_pure fun _ _ _ known => known

/-- Rows read on a connection of its own, of which something is known for good. -/
theorem spares_each {read : Db → Option α} {K : α → Known}
    (sees : ∀ held c a, c.OwnAccounts → read c = some a → (K a).holds held c) :
    Spares mode F (Txn.queryCommitted read) fun found => F.and (Fact.each found K) := by
  refine leads_queryCommitted fun held c inv known => ⟨known, ?_⟩
  cases found : read c with
  | none => trivial
  | some a => exact sees held c a inv found

theorem spares_queryCommitted {read : Db → α} :
    Spares mode F (Txn.queryCommitted read) fun _ => F :=
  leads_queryCommitted fun _ _ _ known => known

theorem spares_query {read : Db → α} : Spares .inside F (Txn.query read) fun _ => F :=
  leads_query fun _ _ _ _ _ known => known

theorem spares_select {locks : List RowLock} {read : Db → α} :
    Spares .inside F (Txn.select locks read) fun _ => F :=
  leads_select fun _ _ _ _ _ known _ => known

/-- An INSERT or UPDATE of rows that are neither wallets nor entries nor accounts. -/
theorem spares_save {locks : List RowLock} {test : Db → Except DatabaseError Unit} {write : Db → Db}
    (writes : Writes locks write) (wallets : ∀ m, (write m).wallets = m.wallets)
    (entries : ∀ m, (write m).ledger.entries = m.ledger.entries)
    (accounts : ∀ m, (write m).ledger.accounts = m.ledger.accounts) :
    Spares .inside F (save locks test write) fun _ => F := by
  refine leads_statement (P := fun _ _ => True) ?_ ?_ fun _ _ _ _ _ _ _ known _ => known
  · intro _ write' m done
    rw [same_of_databaseCheck done]
    exact ⟨writes, fun _ _ _ _ => trivial, trivial⟩
  · intro _ write' m' _ c m done _ _ sparing _
    rw [same_of_databaseCheck done]
    refine sparing.aside (wallets m) (entries m) ?_
    rw [Db.KeepsCodes, accounts]
    exact kept_refl _ fun _ => rfl

theorem spares_execute {locks : List RowLock} {write : Db → Db} (writes : Writes locks write)
    (wallets : ∀ m, (write m).wallets = m.wallets) (ledger : ∀ m, (write m).ledger = m.ledger) :
    Spares .inside F (Txn.execute locks write) fun _ => F := by
  refine leads_execute writes fun _ c m _ _ sparing => ?_
  refine sparing.aside (wallets m) (by rw [ledger]) ?_
  rw [ledger]
  exact kept_refl _ fun _ => rfl

/-- The deferred checks leave wallets, accounts and entries alone. -/
theorem leads_inTransaction {body : DbTxn α}
    (runs : moneyDiscipline.Leads Guarantee .inside Eq F body (fun _ => MayCommit) R) :
    Spares .outside F (inTransaction body) fun _ => Fact.nothing := by
  have commits : ∀ a, moneyDiscipline.Leads Guarantee .inside MayCommit (R a) deferredConstraints
      (fun _ => MayCommit) fun _ => R a := by
    refine fun a => leads_statement (P := fun _ _ => True) ?_ ?_ fun _ _ _ _ _ _ _ known _ => known
    · intro _ write' m done
      rw [same_of_databaseCheck done]
      exact ⟨writes_clearDeferred, fun _ _ _ _ => trivial, trivial⟩
    · rintro _ write' m' _ c m done - - ⟨⟨opened, own⟩, ⟨wallets, codes⟩, spares⟩ -
      rw [same_of_databaseCheck done]
      exact ⟨⟨opened, own⟩, ⟨wallets, codes⟩, spares⟩
  exact leads_transaction runs commits (fun _ _ _ _ _ allowed _ => allowed)
    fun _ _ _ _ _ _ _ _ => trivial

theorem spares_inTransaction {body : DbTxn α} (runs : Spares .inside F body R) :
    Spares .outside F (inTransaction body) fun _ => Fact.nothing := by
  refine leads_inTransaction (R := R) (Leads.weaken (fun _ _ _ inv (sparing : Sparing _ _) =>
    sparing.mayCommit inv) (Leads.since ?_ runs))
  rintro c b - rfl
  exact .refl c

/-! ## The ledger -/

namespace LedgerService

open Finstack.LedgerService

theorem spares_insertEntries {transaction : LedgerTransaction} {entries : List LedgerEntry}
    (ours : ∀ entry ∈ entries, entry.ledgerTransactionId = transaction.id)
    (may : ∀ entry ∈ entries, entry.direction = .debit → ∀ held c, c.OwnAccounts →
      F.holds held c → MayPay c entry.ledgerAccountId) :
    Spares .inside F (saveEntries transaction entries) fun _ => F := by
  refine leads_statement (P := fun _ _ => True) ?_ ?_ fun _ _ _ _ _ _ _ known _ => known
  · intro _ write' m done
    rw [same_of_databaseCheck done]
    exact ⟨writes_insertEntries transaction ours, fun _ _ _ _ => trivial, trivial⟩
  · intro _ write' m' held c m done inv known sparing _
    rw [same_of_databaseCheck done]
    refine ⟨sparing.wallets, fun k row found => ?_, fun id changed => ?_⟩
    · obtain ⟨row', found', same⟩ := sparing.codes k row found
      exact ⟨_, (Ledger.find?_applyBalances entries _ k).trans (congrArg _ found'), same⟩
    · by_cases debited : ∃ entry ∈ entries, entry.ledgerAccountId = id ∧ entry.direction = .debit
      · obtain ⟨entry, member, rfl, taken⟩ := debited
        exact may entry member taken held c inv known
      · push Not at debited
        have none_new : (entries.filter fun entry => entry.ledgerAccountId = id).filter
            (fun entry => entry.direction = .debit) = [] := by
          simpa [List.filter_filter, List.filter_eq_nil_iff] using fun entry member taken here =>
            debited entry member here taken
        refine sparing.debits id fun same => changed ?_
        rw [← same]
        simp only [debitsOn, Db.onLedger, Ledger.entriesOn_append, List.filter_append, none_new,
          List.append_nil]

theorem spares_lockRows (ids : List Uuid) : Spares .inside F (lockRows ids) fun _ => F := by
  induction ids with
  | nil => exact spares_stay
  | cons id rest ih => exact spares_select.bind fun _ => ih.bind fun _ => spares_stay

theorem spares_lockAccounts (ids : List Uuid) : Spares .inside F (lockAccounts ids) fun _ => F := by
  refine (spares_lockRows _).bind fun rows => ?_
  dsimp only
  split_ifs
  · exact spares_throw
  · exact spares_stay

theorem spares_replay (input : PostingInput) :
    Spares .inside F (replay .transaction input) fun _ => F :=
  spares_query.bind fun _ => spares_orFail.bind fun _ => spares_query.bind fun _ => spares_ret

/-- A posting that debits accounts that may pay. -/
theorem spares_postWithin (id : Uuid) {input : PostingInput}
    (may : ∀ entry ∈ input.entries, entry.direction = .debit → ∀ held c, c.OwnAccounts →
      F.holds held c → MayPay c entry.accountId) :
    Spares .inside F (postWithin id input) fun _ => F := by
  refine spares_ret.bind fun amount => spares_query.bind fun existing => ?_
  split_ifs
  · exact spares_replay input
  · have reversal : Spares .inside F (input.reversalOfId.forM assertNotReversed) fun _ => F := by
      cases input.reversalOfId with
      | none => exact spares_stay
      | some original =>
        refine spares_query.bind fun found => ?_
        split_ifs
        · exact spares_throw
        · exact spares_stay
    refine reversal.bind fun _ => (spares_lockAccounts _).bind fun accounts =>
      spares_check.bind fun _ => spares_check.bind fun _ => ?_
    refine (spares_save (writes_insertTransaction _) (fun _ => rfl) (fun _ => rfl) fun _ => rfl).bind
      fun _ => ?_
    refine (spares_insertEntries ?_ ?_).bind fun _ => spares_stay
    · intro entry member
      obtain ⟨_, _, rfl⟩ := List.mem_map.mp member
      rfl
    · intro entry member taken
      obtain ⟨given, present, rfl⟩ := List.mem_map.mp member
      exact may given present taken

/-- A new account takes nothing from anybody. -/
theorem insertAccount_allowed (account : LedgerAccount) {db : Db} (inv : db.OwnAccounts) :
    MayCommit db (db.onLedger (Ledger.insertAccount account)) :=
  Sparing.mayCommit inv {
    wallets := rfl
    codes := fun _ row found => ⟨row, Table.find?_insert_of_some found, rfl⟩
    debits := fun _ changed => (changed rfl).elim }

/-- The account found has the code it was looked up by. -/
theorem spares_ensureSystemAccount (id : Uuid) (definition : SystemAccounts.Definition) :
    Spares mode F (ensureSystemAccount id definition) fun account =>
      F.and (knowsSystemAccount account.id) := by
  refine (leads_separately (R := fun _ => F) (fun c _ write inv done => ?_)
    fun _ _ _ _ _ _ known => known).bind fun _ => ?_
  · rcases insertOrIgnore_ok done with same | ⟨-, rfl⟩
    · exact ⟨.inl same, .inl same⟩
    · obtain ⟨inv', own⟩ := insertAccount_allowed (newAccount id _) inv
      exact ⟨.inr ⟨inv', own, (writes_insertAccount _).frame c⟩, .inr ⟨own.1, inv'⟩⟩
  refine (spares_each (K := fun account => knowsSystemAccount account.id) ?_).bind fun found => ?_
  · intro held c account _ found
    have coded : account.code = some definition.code := by simpa using List.find?_some found
    have member : account ∈ c.ledger.accounts := List.mem_of_find?_eq_some found
    exact ⟨account, Table.find?_of_mem member, by simp [coded]⟩
  · cases found with
    | none => exact spares_throw
    | some account => exact spares_pure fun _ _ _ known => known

theorem spares_recoverPost (input : PostingInput) (error : Err) :
    Spares .outside F (recoverPost input error) fun _ => F := by
  unfold recoverPost
  split_ifs
  · exact spares_queryCommitted.bind fun _ => spares_orFail.bind fun _ =>
      spares_queryCommitted.bind fun _ => spares_ret
  · exact spares_throw
  · exact spares_throw

theorem spares_post (id : Uuid) {input : PostingInput} {beforePost : DbTxn Unit} {F' : Known}
    (before : Spares .inside F beforePost fun _ => F')
    (may : ∀ entry ∈ input.entries, entry.direction = .debit → ∀ held c, c.OwnAccounts →
      F'.holds held c → MayPay c entry.accountId) :
    Spares .outside F (post id input beforePost) fun _ => Fact.nothing :=
  spares_ret.bind fun _ => leads_tryCatch
    (spares_inTransaction (before.bind fun _ => spares_postWithin id may))
    fun error => spares_recoverPost input error

end LedgerService

/-! ## Wallets -/

theorem knowsWallet_of_mem {wallet : Wallet} (member : wallet ∈ c.wallets) :
    (knowsWallet wallet).holds held c :=
  ⟨wallet, Table.find?_of_mem member, fun _ => rfl⟩

/-- Only one account is debited. -/
theorem may_move {currency : String} {movement : MoneyMovement} {debited credited : Uuid}
    (may : ∀ held c, c.OwnAccounts → F.holds held c → MayPay c debited) :
    ∀ entry ∈ (Finstack.WalletsService.move currency movement debited credited).entries,
      entry.direction = .debit → ∀ held c, c.OwnAccounts → F.holds held c →
        MayPay c entry.accountId := by
  intro entry member taken
  rcases List.mem_pair.mp member with rfl | rfl
  · exact may
  · cases taken

/-- A hold is taken from pending and available, and given back from reserved. -/
theorem may_split {wallet : Wallet} {amount taken : Int} {side : EntryDirection}
    (stored : ∀ held c, c.OwnAccounts → F.holds held c → (knowsWallet wallet).holds held c)
    (active : side = .debit → ∀ held c, c.OwnAccounts → F.holds held c →
      (knowsActive [wallet.id]).holds held c) :
    ∀ entry ∈ Finstack.WalletsService.splitEntries wallet amount taken side,
      entry.direction = .debit → ∀ held c, c.OwnAccounts → F.holds held c →
        MayPay c entry.accountId := by
  intro entry member debit held c inv known
  have mine := stored held c inv known
  simp only [Finstack.WalletsService.splitEntries, List.mem_append, List.mem_ite_nil_right,
    List.mem_singleton] at member
  rcases member with (⟨-, rfl⟩ | ⟨-, rfl⟩) | rfl
  · exact mayPay_held .pending inv mine (by decide)
  · exact mayPay_available inv mine (active debit held c inv known) List.mem_cons_self
  · exact mayPay_held .reserved inv mine (by decide)

namespace WalletsService

/-- The wallet with this id. -/
def knowsWalletOf (walletId : Uuid) (wallet : Wallet) : Known :=
  (knowsWallet wallet).and (Fact.given (wallet.id = walletId))

theorem spares_getWallet (walletId : Uuid) :
    Spares mode F (getWallet walletId) fun wallet => F.and (knowsWalletOf walletId wallet) := by
  refine (spares_each fun held c wallet _ found => ?_).bind fun found => spares_orThrow_each
  obtain ⟨member, own⟩ := Table.find?_some found
  exact ⟨knowsWallet_of_mem member, own⟩

theorem spares_findOwned (owner : Owner) (walletId : Uuid) :
    Spares mode F (findOwned owner walletId) fun wallet => F.and (knowsWallet wallet) := by
  refine (spares_each (K := knowsWallet) fun held c wallet _ found => ?_).bind fun found => ?_
  · exact knowsWallet_of_mem (Table.find?_some found).1
  · cases found with
    | none => exact spares_throw
    | some wallet =>
      rw [Option.filter_some]
      split_ifs
      · exact spares_pure fun _ _ _ known => known
      · exact spares_throw

theorem spares_findWallet (owner : Owner) (currency : String) :
    Spares mode F (findWallet owner currency) fun found => F.and (Fact.each found knowsWallet) :=
  spares_each fun _ _ _ _ found => knowsWallet_of_mem (List.mem_of_find?_eq_some found)

/-! ### Locks -/

/-- The rows are locked and as they were read. -/
def knowsRows (ids : List Uuid) (rows : List (Option Wallet)) : Known where
  holds held c := (∀ id ∈ ids, RowLock.wallet id true ∈ held) ∧
    rows = ids.map fun id => c.wallets.find? id
  keeps := by
    rintro held c c' ⟨-, -, same⟩ ⟨locked, rfl⟩
    refine ⟨locked, List.map_congr_left fun id member => ?_⟩
    have guarded := same _ (locked id member)
    simpa only [Db.same_observed, Db.observe, Db.Observed.wallet.injEq] using guarded
  more subset known := ⟨fun id member => subset _ (known.1 id member), known.2⟩

theorem spares_lockRows (ids : List Uuid) :
    Spares .inside F (lockRows ids) fun rows => F.and (knowsRows ids rows) := by
  induction ids generalizing F with
  | nil => exact spares_pure fun _ _ _ known => ⟨known, by simp, rfl⟩
  | cons id rest ih =>
    refine (leads_select (R := fun row => F.and (knowsRows [id] [row])) ?_).bind fun row =>
      ih.bind fun rows => spares_pure ?_
    · intro held c b _ sparing known locked
      refine ⟨known, by simpa using locked, ?_⟩
      rw [sparing.wallets]
      rfl
    · rintro held c - ⟨⟨known, first, read⟩, others, rfl⟩
      refine ⟨known, ?_, ?_⟩
      · simpa using ⟨first id List.mem_cons_self, others⟩
      · rw [(List.cons.inj read).1, List.map_cons]

/-- What is locked is active from here to the commit. -/
theorem spares_lockActiveWallets (ids : List Uuid) :
    Spares .inside F (lockActiveWallets ids) fun _ => F.and (knowsActive ids) := by
  refine (spares_lockRows _).bind fun rows => ?_
  split_ifs with inactive
  · exact spares_throw
  · refine spares_pure fun held c _ => And.imp_right ?_
    rintro ⟨locked, rfl⟩ id member
    have ordered : id ∈ Finstack.LedgerService.lockOrder ids := by
      simpa [Finstack.LedgerService.lockOrder] using member
    refine ⟨locked id ordered, fun wallet found => ?_⟩
    by_contra frozen
    refine inactive (List.any_eq_true.mpr ⟨wallet, ?_, by simpa using frozen⟩)
    exact List.mem_filterMap.mpr ⟨some wallet, List.mem_map.mpr ⟨id, ordered, found⟩, rfl⟩

end WalletsService

end Services

end Finstack
