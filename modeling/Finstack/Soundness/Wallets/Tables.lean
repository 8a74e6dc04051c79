import Finstack.Foundation.RowHistory
import Finstack.Model.Wallets.Openings

/-! # The table of wallets

What holds of every version of a wallet's row, and what each statement has to know to keep it so.
-/

namespace Finstack.Wallets

open Foundation

variable {ι : Type} [DecidableEq ι]

/-- A wallet stays, with its owner and its currency. -/
def KeepsOwner (_ : Uuid) : Option Wallet → Option Wallet → Prop
  | none, _ => True
  | some _, none => False
  | some wallet, some wallet' => wallet'.owner = wallet.owner ∧ wallet'.currency = wallet.currency

theorem KeepsOwner.refl (id : Uuid) (row : Option Wallet) : KeepsOwner id row row := by
  cases row with
  | none => trivial
  | some wallet => exact ⟨rfl, rfl⟩

theorem KeepsOwner.trans {id : Uuid} {row row' row'' : Option Wallet} (first : KeepsOwner id row row')
    (second : KeepsOwner id row' row'') : KeepsOwner id row row'' := by
  cases row with
  | none => trivial
  | some wallet =>
    cases row' with
    | none => exact first.elim
    | some wallet' =>
      cases row'' with
      | none => exact second.elim
      | some wallet'' => exact ⟨second.1.trans first.1, second.2.trans first.2⟩

theorem KeepsOwner.some {id : Uuid} {wallet : Wallet} {row : Option Wallet}
    (keeps : KeepsOwner id (some wallet) row) :
    ∃ wallet', row = some wallet' ∧ wallet'.owner = wallet.owner ∧
      wallet'.currency = wallet.currency := by
  cases row with
  | none => exact keeps.elim
  | some wallet' => exact ⟨wallet', rfl, keeps⟩

structure WalletsInv (config : WalletsConfig) (wallets : RowStore Uuid Wallet ι)
    (ids : List Uuid) : Prop where
  primary : ∀ owner, wallets.OneOf (IsPrimary owner)
  currency : ∀ owner currency, wallets.OneOf (HasCurrency owner currency)
  within : wallets.Within ids
  follows : wallets.Follows KeepsOwner
  every : wallets.Every fun id wallet =>
    wallet.id = id ∧ (config.walletsPerOwner = .single → wallet.isPrimary = true)

/-! ## The unique indexes -/

theorem mem_ofOwner (owner : Owner) (index : WalletIndex) : index ∈ WalletIndex.ofOwner owner := by
  cases owner <;> cases index <;> simp [WalletIndex.ofOwner]

namespace System

variable {s : System ι} {i : ι} {id : Uuid} {wallet : Wallet} {indexes : List WalletIndex}

theorem checkIndexes_passes (passes : s.checkIndexes i id wallet indexes = .passes) :
    ∀ index ∈ indexes, index.covers wallet = true →
      ¬ s.wallets.Taken (index.matching wallet) s.walletIds i id ∧
        ¬ s.wallets.Waits (index.matching wallet) s.walletIds i id := by
  induction indexes with
  | nil => exact fun index member => by cases member
  | cons first indexes ih =>
    unfold checkIndexes at passes
    intro index member covers
    split_ifs at passes with covered taken waits
    · rcases List.mem_cons.mp member with rfl | later
      · exact ⟨taken, waits⟩
      · exact ih passes index later covers
    · rcases List.mem_cons.mp member with rfl | later
      · exact (covered covers).elim
      · exact ih passes index later covers

theorem checkIndexes_violates {constraint : String}
    (violates : s.checkIndexes i id wallet indexes = .violates constraint) :
    ∃ index : WalletIndex, index.covers wallet = true ∧ constraint = index.name wallet.owner ∧
      s.wallets.Taken (index.matching wallet) s.walletIds i id := by
  induction indexes with
  | nil => cases violates
  | cons index indexes ih =>
    unfold checkIndexes at violates
    split_ifs at violates with covered taken waits
    · cases violates
      exact ⟨index, covered, rfl, taken⟩
    · exact ih violates
    · exact ih violates

theorem checkIndexes_waits (waits : s.checkIndexes i id wallet indexes = .waits) :
    ∃ index : WalletIndex, s.wallets.Waits (index.matching wallet) s.walletIds i id := by
  induction indexes with
  | nil => cases waits
  | cons index indexes ih =>
    unfold checkIndexes at waits
    split_ifs at waits with covered taken waiting
    · exact ⟨index, waiting⟩
    · exact ih waits
    · exact ih waits

end System

/-! ## Statements -/

namespace WalletsInv

variable {config : WalletsConfig} {wallets : RowStore Uuid Wallet ι} {ids : List Uuid} {i : ι}
  {id : Uuid}

theorem start : WalletsInv config (.start fun _ => none : RowStore Uuid Wallet ι) [] where
  primary _ := .start
  currency _ _ := .start
  within _ _ := ⟨rfl, rfl⟩
  follows := .start KeepsOwner.refl _
  every := .start

theorem lock (inv : WalletsInv config wallets ids) (free : wallets.Free i id) (known : id ∈ ids) :
    WalletsInv config (wallets.lock i id) ids where
  primary owner := (inv.primary owner).lock free
  currency owner currency := (inv.currency owner currency).lock free
  within := inv.within.lock known
  follows := inv.follows.lock free
  every := inv.every.lock free

theorem commit (inv : WalletsInv config wallets ids) :
    WalletsInv config (wallets.commit i) ids where
  primary owner := (inv.primary owner).commit
  currency owner currency := (inv.currency owner currency).commit
  within := inv.within.commit
  follows := inv.follows.commit KeepsOwner.refl
  every := inv.every.commit

theorem rollback (inv : WalletsInv config wallets ids) :
    WalletsInv config (wallets.rollback i) ids where
  primary owner := (inv.primary owner).rollback
  currency owner currency := (inv.currency owner currency).rollback
  within := inv.within.rollback
  follows := inv.follows.rollback KeepsOwner.refl
  every := inv.every.rollback

/-- The indexes have let a new wallet pass. -/
theorem insert (inv : WalletsInv config wallets ids) {wallet : Wallet} (new : wallet.id ∉ ids)
    (passes : ∀ index : WalletIndex, index.covers wallet = true →
      ¬ wallets.Taken (index.matching wallet) ids i wallet.id ∧
        ¬ wallets.Waits (index.matching wallet) ids i wallet.id)
    (single : config.walletsPerOwner = .single → wallet.isPrimary = true) :
    WalletsInv config (wallets.write i wallet.id (some wallet)) (wallet.id :: ids) := by
  obtain ⟨absent, unheld⟩ := inv.within wallet.id new
  have free : wallets.Free i wallet.id := .inl unheld
  have clear : ∀ index : WalletIndex, index.covers wallet = true →
      wallets.Clear (index.matching wallet) i wallet.id := fun index covers =>
    RowStore.clear_of_not_taken inv.within (passes index covers).1 (passes index covers).2
  constructor
  · intro owner
    by_cases primary : IsPrimary owner wallet = true
    · obtain ⟨rfl, isPrimary⟩ := of_decide_eq_true primary
      exact (inv.primary _).write free (clear .primary isPrimary)
    · exact (inv.primary owner).write_other free primary
  · intro owner currency
    by_cases has : HasCurrency owner currency wallet = true
    · obtain ⟨rfl, rfl⟩ := of_decide_eq_true has
      exact (inv.currency _ _).write free (clear .currency rfl)
    · exact (inv.currency owner currency).write_other free has
  · exact inv.within.cons.write List.mem_cons_self
  · refine inv.follows.write free ?_
    rw [absent]
    trivial
  · refine inv.every.write free fun row written => ?_
    cases written
    exact ⟨rfl, single⟩

/-- A wallet is changed by the one who has it, and stays the owner's only primary one if it is. -/
theorem rewrite (inv : WalletsInv config wallets ids) {wallet wallet' : Wallet}
    (free : wallets.Free i id) (seen : wallets.view i id = some wallet)
    (same : wallet'.id = wallet.id ∧ wallet'.owner = wallet.owner ∧
      wallet'.currency = wallet.currency)
    (primary : ∀ owner, (wallets.write i id (some wallet')).OneOf (IsPrimary owner))
    (single : config.walletsPerOwner = .single → wallet'.isPrimary = true) :
    WalletsInv config (wallets.write i id (some wallet')) ids := by
  obtain ⟨ids_, owners, currencies⟩ := same
  refine ⟨primary, fun owner currency => (inv.currency owner currency).rewrite free seen ?_,
    inv.within.write (inv.within.of_view (by rw [seen]; rfl)), inv.follows.write free ?_,
    inv.every.write free ?_⟩
  · unfold HasCurrency
    rw [owners, currencies]
  · have before := inv.follows i id
    rw [seen] at before
    exact before.trans ⟨owners, currencies⟩
  · intro row written
    cases written
    exact ⟨ids_.trans (inv.every id wallet (RowStore.shows_of_view seen)).1, single⟩

end WalletsInv

end Finstack.Wallets
