import Finstack.Soundness.Wallets.Tables

/-! # One primary wallet

The unique index allows one primary wallet for each owner. That there is one rests on `create`, which
opens another kind of wallet only after it has seen a committed primary one, and on `setPrimary`,
which commits with the wallet that it has made primary. What a call has inserted goes with its
transaction: a call that throws has left nothing.
-/

namespace Finstack.Wallets

open Foundation

variable {ι : Type} [DecidableEq ι]

namespace System

variable (s : System ι) (i : ι)

/-- The owner has a committed primary wallet. -/
def HasPrimary (owner : Owner) : Prop := ∃ id, (s.wallets.rows id).any (IsPrimary owner) = true

def NoWallets : Prop := ∀ id, s.wallets.holder id ≠ some i

/-- The call has inserted nothing. -/
def Fresh : Prop := s.inserted i = [] ∧ s.opened i = []

/-- Nothing that the call has inserted is committed, and nobody else has it. -/
def Unmade : Prop :=
  (∀ id ∈ s.inserted i, id ∈ s.walletIds ∧
    (s.wallets.Absent id ∨ s.wallets.rows id = none ∧ s.wallets.holder id = some i)) ∧
  ∀ id ∈ s.opened i, id ∈ s.accountIds ∧
    (s.accounts.Absent id ∨ s.accounts.rows id = none ∧ s.accounts.holder id = some i)

/-- The call has only locked wallets of this owner. -/
def Locks (owner : Owner) : Prop :=
  ∀ id, s.wallets.holder id = some i → ∃ wallet, s.wallets.rows id = some wallet ∧
    wallet.owner = owner

/-- The call has locked this wallet, and it has the owner. -/
def HasLocked (owner : Owner) (id : Uuid) : Prop :=
  s.wallets.holder id = some i ∧ ∃ wallet, s.wallets.view i id = some wallet ∧ wallet.owner = owner

end System

/-- What a call knows of the rows that it has locked or inserted. -/
def Pc.Holds (config : WalletsConfig) (s : System ι) (i : ι) : Pc → Prop
  | .existsPrimary _ _ => s.NoWallets i ∧ s.Fresh i ∧ config.walletsPerOwner = .multiple
  | .opening attempt _ => s.NoWallets i ∧ s.Unmade i ∧
    (attempt.isPrimary = false → config.walletsPerOwner = .multiple ∧ s.HasPrimary attempt.owner)
  | .commitCreate wallet => s.Unmade i ∧ s.wallets.rows wallet.id = none ∧
    s.wallets.holder wallet.id = some i ∧ s.wallets.view i wallet.id = some wallet ∧
    (∀ id, s.wallets.holder id = some i → id = wallet.id) ∧
    (wallet.isPrimary = false → s.HasPrimary wallet.owner)
  | .selecting _ _ | .reading _ _ | .updatingStatus _ _ => s.NoWallets i ∧ s.Fresh i
  | .locking owner _ remaining wallets => s.Fresh i ∧ s.Locks i owner ∧
    (∀ id ∈ remaining, ∃ wallet, s.wallets.rows id = some wallet ∧ wallet.owner = owner) ∧
    ∀ wallet ∈ wallets, s.wallets.holder wallet.id = some i ∧
      s.wallets.view i wallet.id = some wallet
  | .clearing owner walletId | .setting owner walletId => s.Fresh i ∧ s.Locks i owner ∧
    s.HasLocked i owner walletId ∧ config.walletsPerOwner = .multiple
  | .clearingRows owner walletId remaining => s.Fresh i ∧ s.Locks i owner ∧
    s.HasLocked i owner walletId ∧ config.walletsPerOwner = .multiple ∧
    ∀ id ∈ remaining, ∃ wallet, s.wallets.rows id = some wallet ∧ wallet.owner = owner
  | .commitPrimary owner walletId => s.Fresh i ∧ s.Locks i owner ∧
    (s.wallets.view i walletId).any (IsPrimary owner) = true ∧
    s.wallets.holder walletId = some i
  | .threw _ => s.NoWallets i ∧ s.Unmade i
  | .returned _ | .done | .crashed => s.NoWallets i

namespace System

variable {s s' : System ι} {i j : ι} {config : WalletsConfig}

/-! ## What a step does for the others -/

/-- This version of a wallet's row has been there, or `i` inserts it. -/
def Comes (s s' : System ι) (i : ι) (id : Uuid) (wallet : Wallet) : Prop :=
  (∃ before, s.wallets.Shows id before ∧ before.owner = wallet.owner ∧
    before.currency = wallet.currency) ∨
  id ∈ s'.inserted i ∧ ∃ request attempt accounts,
    s.calls i = some (request, .opening attempt accounts) ∧ attempt.owner = wallet.owner ∧
      attempt.currency = wallet.currency

theorem comes_of_shows {id : Uuid} {wallet : Wallet} (shows_ : s.wallets.Shows id wallet) :
    s.Comes s' i id wallet := .inl ⟨wallet, shows_, rfl, rfl⟩

/-- A row is written by the one who has it. -/
theorem comes_of_write {id l : Uuid} {wallet wallet' row : Wallet} (free : s.wallets.Free i id)
    (seen : s.wallets.view i id = some wallet)
    (same : wallet'.owner = wallet.owner ∧ wallet'.currency = wallet.currency)
    (shows_ : (s.wallets.write i id (some wallet')).Shows l row) : s.Comes s' i l row := by
  rcases RowStore.shows_write free shows_ with before | ⟨rfl, written⟩
  · exact comes_of_shows before
  · cases written
    exact .inl ⟨wallet, RowStore.shows_of_view seen, same.1.symm, same.2.symm⟩

structure Moves (s s' : System ι) (i : ι) : Prop where
  calls : ∀ j, j ≠ i → s'.calls j = s.calls j
  made : ∀ j, j ≠ i → s'.inserted j = s.inserted j ∧ s'.opened j = s.opened j
  grows : s.inserted i ⊆ s'.inserted i
  versions : ∀ id wallet, s'.wallets.Shows id wallet → s.Comes s' i id wallet
  ids : s.walletIds ⊆ s'.walletIds ∧ s.accountIds ⊆ s'.accountIds
  wallets : ∀ j, j ≠ i → s.wallets.Keeps s'.wallets j
  accounts : ∀ j, j ≠ i → s.accounts.Keeps s'.accounts j
  absentWallets : ∀ id ∈ s.walletIds, s.wallets.Absent id → s'.wallets.Absent id
  absentAccounts : ∀ id ∈ s.accountIds, s.accounts.Absent id → s'.accounts.Absent id
  stays : ∀ id, KeepsOwner id (s.wallets.rows id) (s'.wallets.rows id)
  primary : ∀ owner, s.HasPrimary owner → s'.HasPrimary owner

theorem NoWallets.moves (none : s.NoWallets j) (moves : s.Moves s' i) (other : j ≠ i) :
    s'.NoWallets j :=
  fun id held => none id ((moves.wallets j other id).1.mp held)

theorem Fresh.moves (fresh : s.Fresh j) (moves : s.Moves s' i) (other : j ≠ i) : s'.Fresh j := by
  obtain ⟨inserted, opened⟩ := moves.made j other
  exact ⟨inserted.trans fresh.1, opened.trans fresh.2⟩

theorem Unmade.moves (unmade : s.Unmade j) (moves : s.Moves s' i) (other : j ≠ i) :
    s'.Unmade j := by
  obtain ⟨inserted, opened⟩ := moves.made j other
  constructor
  · intro id member
    rw [inserted] at member
    obtain ⟨known, absent | ⟨gone, mine⟩⟩ := unmade.1 id member
    · exact ⟨moves.ids.1 known, .inl (moves.absentWallets id known absent)⟩
    · have keeps := moves.wallets j other id
      exact ⟨moves.ids.1 known, .inr ⟨(keeps.2 mine).1.trans gone, keeps.1.mpr mine⟩⟩
  · intro id member
    rw [opened] at member
    obtain ⟨known, absent | ⟨gone, mine⟩⟩ := unmade.2 id member
    · exact ⟨moves.ids.2 known, .inl (moves.absentAccounts id known absent)⟩
    · have keeps := moves.accounts j other id
      exact ⟨moves.ids.2 known, .inr ⟨(keeps.2 mine).1.trans gone, keeps.1.mpr mine⟩⟩

theorem Moves.owned (moves : s.Moves s' i) {owner : Owner} {id : Uuid}
    (owned : ∃ wallet, s.wallets.rows id = some wallet ∧ wallet.owner = owner) :
    ∃ wallet, s'.wallets.rows id = some wallet ∧ wallet.owner = owner := by
  obtain ⟨wallet, row, same⟩ := owned
  have stays := moves.stays id
  rw [row] at stays
  obtain ⟨wallet', row', owner', -⟩ := stays.some
  exact ⟨wallet', row', owner'.trans same⟩

theorem Locks.moves {owner : Owner} (locks : s.Locks j owner) (moves : s.Moves s' i)
    (other : j ≠ i) : s'.Locks j owner :=
  fun id held => moves.owned (locks id ((moves.wallets j other id).1.mp held))

theorem HasLocked.moves {owner : Owner} {id : Uuid} (locked : s.HasLocked j owner id)
    (moves : s.Moves s' i) (other : j ≠ i) : s'.HasLocked j owner id := by
  obtain ⟨held, wallet, seen, same⟩ := locked
  have keeps := moves.wallets j other id
  exact ⟨keeps.1.mpr held, wallet, (keeps.2 held).2.trans seen, same⟩

theorem holds_moves {pc : Pc} (holds : pc.Holds config s j) (moves : s.Moves s' i)
    (other : j ≠ i) : pc.Holds config s' j := by
  have view : ∀ {id}, s.wallets.holder id = some j →
      s'.wallets.holder id = some j ∧ s'.wallets.view j id = s.wallets.view j id :=
    fun held => ⟨(moves.wallets j other _).1.mpr held, ((moves.wallets j other _).2 held).2⟩
  cases pc with
  | existsPrimary => exact ⟨holds.1.moves moves other, holds.2.1.moves moves other, holds.2.2⟩
  | opening attempt accounts =>
    exact ⟨holds.1.moves moves other, holds.2.1.moves moves other,
      fun second => (holds.2.2 second).imp_right (moves.primary _)⟩
  | commitCreate wallet =>
    obtain ⟨unmade, absent, held, seen, only, primary⟩ := holds
    exact ⟨unmade.moves moves other, ((moves.wallets j other _).2 held).1.trans absent,
      (view held).1, (view held).2.trans seen,
      fun id mine => only id ((moves.wallets j other id).1.mp mine),
      fun second => moves.primary _ (primary second)⟩
  | selecting => exact ⟨holds.1.moves moves other, holds.2.moves moves other⟩
  | reading => exact ⟨holds.1.moves moves other, holds.2.moves moves other⟩
  | updatingStatus => exact ⟨holds.1.moves moves other, holds.2.moves moves other⟩
  | locking owner walletId remaining wallets =>
    obtain ⟨fresh, locks, owned, read⟩ := holds
    refine ⟨fresh.moves moves other, locks.moves moves other,
      fun id member => moves.owned (owned id member), fun wallet member => ?_⟩
    obtain ⟨held, seen⟩ := read wallet member
    exact ⟨(view held).1, (view held).2.trans seen⟩
  | clearing =>
    exact ⟨holds.1.moves moves other, holds.2.1.moves moves other,
      holds.2.2.1.moves moves other, holds.2.2.2⟩
  | setting =>
    exact ⟨holds.1.moves moves other, holds.2.1.moves moves other,
      holds.2.2.1.moves moves other, holds.2.2.2⟩
  | clearingRows owner walletId remaining =>
    obtain ⟨fresh, locks, locked, multiple, owned⟩ := holds
    exact ⟨fresh.moves moves other, locks.moves moves other, locked.moves moves other, multiple,
      fun id member => moves.owned (owned id member)⟩
  | commitPrimary owner walletId =>
    obtain ⟨fresh, locks, primary, held⟩ := holds
    refine ⟨fresh.moves moves other, locks.moves moves other, ?_, (view held).1⟩
    rw [(view held).2]
    exact primary
  | threw => exact ⟨holds.1.moves moves other, holds.2.moves moves other⟩
  | returned => exact NoWallets.moves holds moves other
  | done => exact NoWallets.moves holds moves other
  | crashed => exact NoWallets.moves holds moves other

/-! ## One step -/

structure Inv (config : WalletsConfig) (s : System ι) : Prop where
  wallets : WalletsInv config s.wallets s.walletIds
  accounts : s.accounts.Within s.accountIds
  primary : ∀ id wallet, s.wallets.rows id = some wallet → s.HasPrimary wallet.owner
  idle : ∀ i, s.calls i = none → s.NoWallets i ∧ s.Fresh i
  calls : ∀ i request pc, s.calls i = some (request, pc) → pc.Holds config s i

/-- The next state, after a step of `i`. -/
structure Next (config : WalletsConfig) (s s' : System ι) (i : ι) : Prop where
  inv : s'.Inv config
  moves : s.Moves s' i

variable {request : Request} {pc : Pc} {id : Uuid}

theorem Inv.put (inv : s.Inv config) (moves : s.Moves s' i)
    (here : s'.calls i = some (request, pc)) (wallets : WalletsInv config s'.wallets s'.walletIds)
    (accounts : s'.accounts.Within s'.accountIds)
    (primary : ∀ id wallet, s'.wallets.rows id = some wallet → s'.HasPrimary wallet.owner)
    (holds : pc.Holds config s' i) : Next config s s' i where
  moves := moves
  inv := {
    wallets := wallets
    accounts := accounts
    primary := primary
    idle := fun j new => by
      rcases eq_or_ne j i with rfl | other
      · rw [here] at new
        cases new
      · rw [moves.calls j other] at new
        obtain ⟨none, fresh⟩ := inv.idle j new
        exact ⟨none.moves moves other, fresh.moves moves other⟩
    calls := fun j request' pc' there => by
      rcases eq_or_ne j i with rfl | other
      · rw [here] at there
        cases there
        exact holds
      · rw [moves.calls j other] at there
        exact holds_moves (inv.calls j request' pc' there) moves other }

omit [DecidableEq ι] in
theorem HasPrimary.of_rows {owner : Owner} (has : s.HasPrimary owner)
    (rows : s'.wallets.rows = s.wallets.rows) : s'.HasPrimary owner := by
  obtain ⟨id, is⟩ := has
  exact ⟨id, by rw [rows]; exact is⟩

theorem calls_goto_ne (request : Request) (pc : Pc) (j : ι) (other : j ≠ i) :
    (s.goto i request pc).calls j = s.calls j := Function.update_of_ne other ..

/-- A step that only changes wallets, and commits nothing. -/
theorem Inv.putWallets (inv : s.Inv config) {wallets : RowStore Uuid Wallet ι} {ids : List Uuid}
    {inserted : ι → List Uuid} (still : WalletsInv config wallets ids)
    (rows : wallets.rows = s.wallets.rows) (known : s.walletIds ⊆ ids)
    (keeps : ∀ j, j ≠ i → s.wallets.Keeps wallets j)
    (absent : ∀ id ∈ s.walletIds, s.wallets.Absent id → wallets.Absent id)
    (made : ∀ j, j ≠ i → inserted j = s.inserted j) (grows : s.inserted i ⊆ inserted i)
    (versions : ∀ id wallet, wallets.Shows id wallet → s.Comes { s.goto i request pc with
      wallets := wallets, walletIds := ids, inserted := inserted } i id wallet)
    (holds : pc.Holds config { s.goto i request pc with
      wallets := wallets, walletIds := ids, inserted := inserted } i) :
    Next config s { s.goto i request pc with
      wallets := wallets, walletIds := ids, inserted := inserted } i := by
  refine inv.put ?_ (Function.update_self ..) still inv.accounts ?_ holds
  · exact {
      calls := calls_goto_ne request pc
      made := fun j other => ⟨made j other, rfl⟩
      grows := grows
      versions := versions
      ids := ⟨known, List.Subset.refl _⟩
      wallets := keeps
      accounts := fun j _ => .refl _ j
      absentWallets := absent
      absentAccounts := fun _ _ gone => gone
      stays := fun id => by rw [show _ = s.wallets.rows from rows]; exact KeepsOwner.refl id _
      primary := fun owner has => has.of_rows rows }
  · intro id wallet row
    rw [show _ = s.wallets.rows from rows] at row
    exact (inv.primary id wallet row).of_rows rows

/-- A step that changes no row. -/
theorem Inv.goto (inv : s.Inv config) (holds : pc.Holds config s i) :
    Next config s (s.goto i request pc) i := by
  refine inv.putWallets inv.wallets rfl (List.Subset.refl _) (fun j _ => .refl _ j)
    (fun _ _ gone => gone) (fun _ _ => rfl) (List.Subset.refl _) (fun _ _ => comes_of_shows) ?_
  cases pc <;> exact holds

/-- A change of a row that is there. -/
theorem Inv.putRow (inv : s.Inv config) {wallets : RowStore Uuid Wallet ι}
    (still : WalletsInv config wallets s.walletIds) (rows : wallets.rows = s.wallets.rows)
    (there : ¬ s.wallets.Absent id) (keeps : ∀ j, j ≠ i → s.wallets.Keeps wallets j)
    (absent : ∀ l, l ≠ id → s.wallets.Absent l → wallets.Absent l)
    (versions : ∀ l wallet, wallets.Shows l wallet →
      s.Comes { s.goto i request pc with wallets := wallets } i l wallet)
    (holds : pc.Holds config { s.goto i request pc with wallets := wallets } i) :
    Next config s { s.goto i request pc with wallets := wallets } i := by
  refine inv.putWallets still rows (List.Subset.refl _) keeps (fun l _ gone => ?_)
    (fun _ _ => rfl) (List.Subset.refl _) versions holds
  apply absent l _ gone
  rintro rfl
  exact there gone

theorem not_absent_of_view {wallet : Wallet} (seen : s.wallets.view i id = some wallet) :
    ¬ s.wallets.Absent id := by
  intro absent
  rw [absent.view] at seen
  cases seen

/-! ### Rollbacks -/

theorem noWallets_rollback : (s.rollback i).NoWallets i :=
  fun _ held => (RowStore.holder_rollback.mp held).2 rfl

/-- What was inserted is gone. -/
theorem Unmade.rollback (unmade : s.Unmade i) : (s.rollback i).Unmade i := by
  constructor
  · intro id member
    obtain ⟨known, absent | ⟨gone, mine⟩⟩ := unmade.1 id member
    · exact ⟨known, .inl absent.rollback⟩
    · exact ⟨known, .inl ⟨gone, by simp [System.rollback, RowStore.rollback, RowStore.release, mine]⟩⟩
  · intro id member
    obtain ⟨known, absent | ⟨gone, mine⟩⟩ := unmade.2 id member
    · exact ⟨known, .inl absent.rollback⟩
    · exact ⟨known, .inl ⟨gone, by simp [System.rollback, RowStore.rollback, RowStore.release, mine]⟩⟩

omit [DecidableEq ι] in
theorem Fresh.unmade (fresh : s.Fresh i) : s.Unmade i := by
  refine ⟨fun id member => ?_, fun id member => ?_⟩
  · rw [fresh.1] at member
    cases member
  · rw [fresh.2] at member
    cases member

theorem Inv.rollback (inv : s.Inv config) (holds : pc.Holds config (s.rollback i) i) :
    Next config s ((s.rollback i).goto i request pc) i := by
  refine inv.put ?_ (Function.update_self ..) inv.wallets.rollback inv.accounts.rollback
    inv.primary ?_
  · exact {
      calls := calls_goto_ne (s := s.rollback i) request pc
      made := fun j _ => ⟨rfl, rfl⟩
      grows := List.Subset.refl _
      versions := fun _ _ there => comes_of_shows (RowStore.shows_rollback there)
      ids := ⟨List.Subset.refl _, List.Subset.refl _⟩
      wallets := fun j other => RowStore.keeps_rollback other
      accounts := fun j other => RowStore.keeps_rollback other
      absentWallets := fun _ _ gone => gone.rollback
      absentAccounts := fun _ _ gone => gone.rollback
      stays := fun id => KeepsOwner.refl id _
      primary := fun _ has => has }
  · cases pc <;> exact holds

/-- A call that throws has nothing to leave. -/
theorem Inv.throw (inv : s.Inv config) (unmade : s.Unmade i) (error : Err) :
    Next config s ((s.rollback i).goto i request (.threw error)) i :=
  inv.rollback ⟨noWallets_rollback, unmade.rollback⟩

/-! ### Commits -/

/-- A commit that leaves every owner a primary wallet. -/
theorem Inv.commit (inv : s.Inv config) (stays : ∀ owner, s.HasPrimary owner →
      (s.commit i).HasPrimary owner)
    (primary : ∀ id wallet, s.wallets.view i id = some wallet →
      (s.commit i).HasPrimary wallet.owner)
    (holds : pc.Holds config (s.commit i) i) :
    Next config s ((s.commit i).goto i request pc) i := by
  refine inv.put ?_ (Function.update_self ..) inv.wallets.commit inv.accounts.commit primary ?_
  · exact {
      calls := calls_goto_ne (s := s.commit i) request pc
      made := fun j _ => ⟨rfl, rfl⟩
      grows := List.Subset.refl _
      versions := fun _ _ there => comes_of_shows (RowStore.shows_commit there)
      ids := ⟨List.Subset.refl _, List.Subset.refl _⟩
      wallets := fun j other => RowStore.keeps_commit other
      accounts := fun j other => RowStore.keeps_commit other
      absentWallets := fun _ _ gone => gone.commit
      absentAccounts := fun _ _ gone => gone.commit
      stays := inv.wallets.follows i
      primary := stays }
  · cases pc <;> exact holds

theorem noWallets_commit : (s.commit i).NoWallets i :=
  fun _ held => (RowStore.holder_commit.mp held).2 rfl

/-- `create` commits its wallet. -/
theorem Inv.commitCreate (inv : s.Inv config) {wallet : Wallet}
    (holds : (Pc.commitCreate wallet).Holds config s i) :
    Next config s ((s.commit i).goto i request (.returned wallet)) i := by
  obtain ⟨-, gone, -, seen, only, primary⟩ := holds
  have stays : ∀ owner, s.HasPrimary owner → (s.commit i).HasPrimary owner := by
    rintro owner ⟨id, is⟩
    refine ⟨id, ?_⟩
    change ((s.wallets.view i id).any (IsPrimary owner)) = true
    rw [RowStore.view_of_not_held]
    · exact is
    · intro held
      rw [only id held, gone] at is
      cases is
  refine inv.commit stays (fun id row there => ?_) noWallets_commit
  by_cases held : s.wallets.holder id = some i
  · obtain rfl := only id held
    obtain rfl := Option.some.inj (there.symm.trans seen)
    by_cases first : row.isPrimary = true
    · refine ⟨row.id, ?_⟩
      change ((s.wallets.view i row.id).any (IsPrimary row.owner)) = true
      rw [seen]
      simp [IsPrimary, first]
    · exact stays _ (primary (by simpa using first))
  · rw [RowStore.view_of_not_held held] at there
    exact stays _ (inv.primary id row there)

/-- `setPrimary` commits a primary wallet. -/
theorem Inv.commitPrimary (inv : s.Inv config) {owner : Owner} {walletId : Uuid}
    (holds : (Pc.commitPrimary owner walletId).Holds config s i) :
    Next config s ((s.commit i).goto i request (.reading owner walletId)) i := by
  obtain ⟨fresh, locks, primary, -⟩ := holds
  have has : (s.commit i).HasPrimary owner := ⟨walletId, primary⟩
  have stays : ∀ owner', s.HasPrimary owner' → (s.commit i).HasPrimary owner' := by
    rintro owner' ⟨id, is⟩
    by_cases held : s.wallets.holder id = some i
    · -- it is a wallet of this owner
      obtain ⟨wallet, row, same⟩ := locks id held
      rw [row] at is
      obtain ⟨other, -⟩ := of_decide_eq_true (show IsPrimary owner' wallet = true from is)
      rw [← other, same]
      exact has
    · refine ⟨id, ?_⟩
      change ((s.wallets.view i id).any (IsPrimary owner')) = true
      rw [RowStore.view_of_not_held held]
      exact is
  refine inv.commit stays (fun id row there => ?_) ⟨noWallets_commit, fresh⟩
  by_cases held : s.wallets.holder id = some i
  · obtain ⟨wallet, before, same⟩ := locks id held
    have follows := inv.wallets.follows i id
    rw [before, there] at follows
    rw [follows.1, same]
    exact has
  · rw [RowStore.view_of_not_held held] at there
    exact stays _ (inv.primary id row there)

/-- The administrator's update commits by itself. -/
theorem Inv.updateStatus (inv : s.Inv config) (none : s.NoWallets i) {wallet : Wallet}
    {status : WalletStatus} (free : s.wallets.Free i id)
    (seen : s.wallets.view i id = some wallet) :
    Next config s (((s.write i id { wallet with status }).commit i).goto i request .done) i := by
  have row : s.wallets.rows id = some wallet := by
    rw [← seen, RowStore.view_of_not_held (none id)]
  have rows : ((s.wallets.write i id (some { wallet with status })).commit i).rows =
      Function.update s.wallets.rows id (some { wallet with status }) :=
    RowStore.rows_commit_write none
  have still : WalletsInv config (s.wallets.write i id (some { wallet with status })) s.walletIds :=
    inv.wallets.rewrite free seen ⟨rfl, rfl, rfl⟩
      (fun owner => (inv.wallets.primary owner).rewrite free seen rfl)
      (inv.wallets.every id wallet (RowStore.shows_of_view seen)).2
  have primary : ∀ owner, s.HasPrimary owner →
      ((s.write i id { wallet with status }).commit i).HasPrimary owner := by
    rintro owner ⟨l, is⟩
    refine ⟨l, ?_⟩
    rw [show ((s.write i id { wallet with status }).commit i).wallets.rows = _ from rows]
    rcases eq_or_ne l id with rfl | other
    · rw [Function.update_self]
      rw [row] at is
      exact is
    · rw [Function.update_of_ne other]
      exact is
  refine inv.put ?_ (Function.update_self ..) still.commit inv.accounts.commit ?_ noWallets_commit
  · exact {
      calls := calls_goto_ne (s := (s.write i id { wallet with status }).commit i) request .done
      made := fun j _ => ⟨rfl, rfl⟩
      grows := List.Subset.refl _
      versions := fun l row' there => by
        have before : (s.wallets.write i id (some { wallet with status })).Shows l row' :=
          RowStore.shows_commit there
        refine comes_of_write free seen ?_ before
        exact ⟨rfl, rfl⟩
      ids := ⟨List.Subset.refl _, List.Subset.refl _⟩
      wallets := fun j other => (RowStore.keeps_write other free).trans (RowStore.keeps_commit other)
      accounts := fun j other => RowStore.keeps_commit other
      absentWallets := fun l _ gone => by
        refine (gone.write ?_).commit
        rintro rfl
        exact not_absent_of_view seen gone
      absentAccounts := fun _ _ gone => gone.commit
      stays := fun l => still.follows i l
      primary := primary }
  · intro l row' there
    rw [show (((s.write i id { wallet with status }).commit i).goto i request .done).wallets.rows =
      _ from rows] at there
    rcases eq_or_ne l id with rfl | other
    · rw [Function.update_self] at there
      cases there
      exact primary _ (inv.primary l wallet row)
    · rw [Function.update_of_ne other] at there
      exact primary _ (inv.primary l row' there)

/-! ### `insertWallet` -/

theorem Inv.openAccount (inv : s.Inv config) {purpose : String} {attempt : Attempt}
    {accounts : List Uuid} (holds : (Pc.opening attempt accounts).Holds config s i)
    (opens : s.openAccount i request id purpose attempt accounts = some s') :
    Next config s s' i := by
  unfold System.openAccount at opens
  split_ifs at opens with known
  cases opens
  obtain ⟨none, unmade, primary⟩ := holds
  obtain ⟨gone, unheld⟩ := inv.accounts id known
  have free : s.accounts.Free i id := .inl unheld
  have others : ∀ l ∈ s.accountIds, l ≠ id := by
    rintro l member rfl
    exact known member
  refine inv.put ?_ (Function.update_self ..) inv.wallets
    (inv.accounts.cons.write List.mem_cons_self) inv.primary ?_
  · exact {
      calls := calls_goto_ne request _
      made := fun j other => ⟨rfl, Function.update_of_ne other ..⟩
      grows := List.Subset.refl _
      versions := fun _ _ there => comes_of_shows (s := s) there
      ids := ⟨List.Subset.refl _, List.subset_cons_self ..⟩
      wallets := fun j _ => .refl _ j
      accounts := fun j other => RowStore.keeps_write other free
      absentWallets := fun _ _ gone => gone
      absentAccounts := fun l member gone => gone.write (others l member)
      stays := fun id => KeepsOwner.refl id _
      primary := fun _ has => has }
  · refine ⟨none, ⟨unmade.1, fun l member => ?_⟩, primary⟩
    change l ∈ Function.update s.opened i (id :: s.opened i) i at member
    rw [Function.update_self] at member
    rcases List.mem_cons.mp member with rfl | earlier
    · exact ⟨List.mem_cons_self, .inr ⟨gone, RowStore.holder_write_self⟩⟩
    · obtain ⟨there, absent | ⟨rows, mine⟩⟩ := unmade.2 l earlier
      · exact ⟨List.mem_cons_of_mem _ there, .inl (absent.write (others l there))⟩
      · exact ⟨List.mem_cons_of_mem _ there,
          .inr ⟨rows, (RowStore.holder_write_ne (others l there)).trans mine⟩⟩

theorem single_ne_multiple : ¬ (config.walletsPerOwner = .single ∧
    config.walletsPerOwner = .multiple) := by
  rintro ⟨single, multiple⟩
  rw [single] at multiple
  cases multiple

/-- Where an attempt has failed: a primary wallet was in the way if it is tried again. -/
theorem holds_onError {attempt : Attempt} {error : Err} (unmade : s.Unmade i)
    (primary : isUniqueViolation error PRIMARY_CONSTRAINTS = true → s.HasPrimary attempt.owner) :
    (config.onError attempt error).Holds config (s.rollback i) i := by
  have threw : ∀ error, (Pc.threw error).Holds config (s.rollback i) i :=
    fun _ => ⟨noWallets_rollback, unmade.rollback⟩
  unfold WalletsConfig.onError
  split_ifs with currency retry violated
  · exact threw _
  · exact threw _
  · cases mode : config.walletsPerOwner with
    | single => exact threw _
    | multiple =>
      exact ⟨noWallets_rollback, unmade.rollback, fun _ => ⟨mode, primary violated⟩⟩
  · exact threw _

theorem index_of_primary {owner : Owner} {index : WalletIndex}
    (violated : isUniqueViolation (.database (.uniqueViolation (index.name owner)))
      PRIMARY_CONSTRAINTS = true) : index = .primary := by
  cases index with
  | primary => rfl
  | currency =>
    cases owner <;> simp [isUniqueViolation, WalletIndex.name, PRIMARY_CONSTRAINTS] at violated

theorem Inv.insertWallet (inv : s.Inv config) {attempt : Attempt} {accounts : List Uuid}
    {available pending reserved : Uuid} (here : s.calls i = some (request, .opening attempt accounts))
    (inserts : s.insertWallet config i request attempt
      (newWallet id attempt available pending reserved) = some s') : Next config s s' i := by
  obtain ⟨none, unmade, primary⟩ := inv.calls i request _ here
  unfold System.insertWallet at inserts
  split_ifs at inserts with known
  obtain ⟨gone, unheld⟩ := inv.wallets.within _ known
  have free : s.wallets.Free i id := .inl unheld
  have others : ∀ l ∈ s.walletIds, l ≠ id := by
    rintro l member rfl
    exact known member
  split at inserts
  next passes =>
    cases inserts
    refine inv.putWallets (inv.wallets.insert known (fun index covers =>
      checkIndexes_passes passes index (mem_ofOwner _ index) covers) ?_) RowStore.rows_write
      (List.subset_cons_self ..) (fun _ other => RowStore.keeps_write other free)
      (fun l member gone => gone.write (others l member))
      (fun j other => Function.update_of_ne other ..) ?_ ?_ ?_
    · intro single
      by_contra second
      exact single_ne_multiple ⟨single, (primary (by simpa [newWallet] using second)).1⟩
    · rw [Function.update_self]
      exact List.subset_cons_self ..
    · intro l wallet there
      rcases RowStore.shows_write free there with before | ⟨rfl, written⟩
      · exact comes_of_shows before
      · cases written
        refine .inr ⟨?_, request, attempt, accounts, here, rfl, rfl⟩
        simp [newWallet]
    · refine ⟨⟨fun l member => ?_, unmade.2⟩, gone, RowStore.holder_write_self,
        RowStore.view_write_self, fun l held => ?_, fun second => (primary second).2⟩
      · change l ∈ Function.update s.inserted i (id :: s.inserted i) i at member
        rw [Function.update_self] at member
        rcases List.mem_cons.mp member with rfl | earlier
        · exact ⟨List.mem_cons_self, .inr ⟨gone, RowStore.holder_write_self⟩⟩
        · obtain ⟨there, absent | ⟨-, mine⟩⟩ := unmade.1 l earlier
          · exact ⟨List.mem_cons_of_mem _ there, .inl (absent.write (others l there))⟩
          · exact (none l mine).elim
      · by_contra other
        exact none l ((RowStore.holder_write_ne other).symm.trans held)
  next => cases inserts
  next constraint violates =>
    cases inserts
    refine inv.rollback (holds_onError unmade fun violated => ?_)
    obtain ⟨index, -, rfl, l, -, -, -, is⟩ := checkIndexes_violates violates
    obtain rfl := index_of_primary violated
    rw [RowStore.view_of_not_held (none l)] at is
    exact ⟨l, is⟩

theorem Inv.insertNext (inv : s.Inv config) (here : s.calls i = some (request, pc))
    (inserts : s.insertNext config i id request pc = some s') : Next config s s' i := by
  have holds := inv.calls i request pc here
  cases pc <;> try cases inserts
  case opening attempt accounts =>
    rcases accounts with _ | ⟨available, _ | ⟨pending, _ | ⟨reserved, _ | ⟨more, accounts⟩⟩⟩⟩
    · exact inv.openAccount holds inserts
    · exact inv.openAccount holds inserts
    · exact inv.openAccount holds inserts
    · exact inv.insertWallet here inserts
    · cases inserts

/-! ### `setPrimary` -/

theorem Inv.selected (inv : s.Inv config) {owner : Owner} {walletId : Uuid}
    {wallets : List Wallet}
    (holds : (Pc.locking owner walletId [] wallets).Holds config s i) :
    Next config s (s.selected i request owner walletId wallets) i := by
  obtain ⟨fresh, locks, -, read⟩ := holds
  unfold System.selected
  split
  next => exact inv.throw fresh.unmade _
  next target found =>
    obtain ⟨held, seen⟩ := read target (List.mem_of_find?_eq_some found)
    obtain rfl : target.id = walletId := by simpa using List.find?_some found
    obtain ⟨wallet, row, same⟩ := locks target.id held
    have owned : target.owner = owner := by
      have follows := inv.wallets.follows i target.id
      rw [row, seen] at follows
      exact follows.1.trans same
    split_ifs with primary active
    · exact inv.goto ⟨fresh, locks, by simp [seen, IsPrimary, owned, primary], held⟩
    · exact inv.throw fresh.unmade _
    · refine inv.goto ⟨fresh, locks, ⟨held, target, seen, owned⟩, ?_⟩
      cases mode : config.walletsPerOwner with
      | multiple => rfl
      | single =>
        have all := (inv.wallets.every _ target (RowStore.shows_of_view seen)).2 mode
        exact (primary all).elim

/-- The next row of `FOR UPDATE`. -/
theorem Inv.lockNext (inv : s.Inv config) {owner : Owner} {walletId : Uuid} {remaining : List Uuid}
    {wallets : List Wallet} {wallet : Wallet}
    (holds : (Pc.locking owner walletId (id :: remaining) wallets).Holds config s i)
    (free : s.wallets.Free i id) (seen : s.wallets.view i id = some wallet) :
    Next config s { s.goto i request (.locking owner walletId remaining (wallets ++ [wallet])) with
      wallets := s.wallets.lock i id } i := by
  obtain ⟨fresh, locks, owned, read⟩ := holds
  have known := inv.wallets.within.of_view (i := i) (by rw [seen]; rfl)
  have committed : ∀ {l}, (∃ wallet, s.wallets.rows l = some wallet ∧ wallet.owner = owner) →
      ∃ wallet, (s.wallets.lock i id).rows l = some wallet ∧ wallet.owner = owner := by
    rw [RowStore.rows_lock]
    exact fun there => there
  refine inv.putRow (inv.wallets.lock free known) RowStore.rows_lock (not_absent_of_view seen)
    (fun _ other => RowStore.keeps_lock other free) (fun l other gone => gone.lock other)
    (fun _ _ there => comes_of_shows (RowStore.shows_lock free there))
    ⟨fresh, fun l held => ?_, fun l member => ?_, fun row member => ?_⟩
  · refine committed ?_
    rcases eq_or_ne l id with rfl | other
    · exact owned l List.mem_cons_self
    · exact locks l ((RowStore.holder_lock_ne other).symm.trans held)
  · exact committed (owned l (List.mem_cons_of_mem _ member))
  · have views : ∀ l, (s.wallets.lock i id).view i l = s.wallets.view i l :=
      congrFun RowStore.view_lock
    rcases List.mem_append.mp member with earlier | this
    · obtain ⟨held, seen'⟩ := read row earlier
      refine ⟨?_, (views _).trans seen'⟩
      by_cases same : row.id = id
      · rw [same]
        exact RowStore.holder_lock_self
      · exact (RowStore.holder_lock_ne same).trans held
    · obtain rfl := List.mem_singleton.mp this
      obtain ⟨same, -⟩ := inv.wallets.every id row (RowStore.shows_of_view seen)
      rw [same]
      exact ⟨RowStore.holder_lock_self, (views id).trans seen⟩

/-- The next row of the update that clears. -/
theorem Inv.clearNext (inv : s.Inv config) {owner : Owner} {walletId : Uuid}
    {remaining : List Uuid} {wallet : Wallet}
    (holds : (Pc.clearingRows owner walletId (id :: remaining)).Holds config s i)
    (free : s.wallets.Free i id) (seen : s.wallets.view i id = some wallet) :
    Next config s ((s.write i id { wallet with isPrimary := false }).goto i request
      (.clearingRows owner walletId remaining)) i := by
  obtain ⟨fresh, locks, ⟨held, target, target_seen, same⟩, multiple, owned⟩ := holds
  refine inv.putRow (inv.wallets.rewrite free seen ⟨rfl, rfl, rfl⟩
    (fun owner => (inv.wallets.primary owner).write_other free (by simp [IsPrimary]))
    (fun single => (single_ne_multiple ⟨single, multiple⟩).elim)) RowStore.rows_write
    (not_absent_of_view seen) (fun _ other => RowStore.keeps_write other free)
    (fun l other gone => gone.write other) (fun _ _ => comes_of_write free seen ⟨rfl, rfl⟩)
    ⟨fresh, fun l mine => ?_, ?_, multiple, fun l member => owned l (List.mem_cons_of_mem _ member)⟩
  · rcases eq_or_ne l id with rfl | other
    · exact owned l List.mem_cons_self
    · exact locks l ((RowStore.holder_write_ne other).symm.trans mine)
  · rcases eq_or_ne walletId id with rfl | other
    · obtain rfl := Option.some.inj (seen.symm.trans target_seen)
      exact ⟨RowStore.holder_write_self, _, RowStore.view_write_self, same⟩
    · exact ⟨(RowStore.holder_write_ne other).trans held, target,
        (RowStore.view_write_ne other).trans target_seen, same⟩

/-- The target becomes the primary wallet, unless the index has another one. -/
theorem Inv.setting (inv : s.Inv config) {owner : Owner} {walletId : Uuid}
    (holds : (Pc.setting owner walletId).Holds config s i)
    (sets : s.advance i request (.setting owner walletId) = some s') : Next config s s' i := by
  obtain ⟨fresh, locks, ⟨held, wallet, seen, same⟩, multiple⟩ := holds
  have free : s.wallets.Free i walletId := .inr held
  simp only [System.advance, seen] at sets
  split at sets <;> cases sets
  next passes =>
    obtain ⟨taken, waits⟩ := checkIndexes_passes passes .primary (mem_ofOwner _ _) rfl
    have clear := RowStore.clear_of_not_taken inv.wallets.within taken waits
    refine inv.putRow (inv.wallets.rewrite free seen ⟨rfl, rfl, rfl⟩ (fun owner' => ?_)
      fun _ => rfl) RowStore.rows_write (not_absent_of_view seen)
      (fun _ other => RowStore.keeps_write other free) (fun l other gone => gone.write other)
      (fun _ _ => comes_of_write free seen ⟨rfl, rfl⟩)
      ⟨fresh, fun l mine => ?_, ?_, RowStore.holder_write_self⟩
    · by_cases mine : wallet.owner = owner'
      · rw [← mine]
        exact (inv.wallets.primary _).write free clear
      · exact (inv.wallets.primary owner').write_other free (by simp [IsPrimary, mine])
    · by_cases other : l = walletId
      · rw [other]
        exact locks walletId held
      · exact locks l ((RowStore.holder_write_ne other).symm.trans mine)
    · change ((s.wallets.write i walletId _).view i walletId).any _ = true
      rw [RowStore.view_write_self]
      simp [IsPrimary, same]
  next => exact inv.throw fresh.unmade _

/-! ### Any step -/

theorem Inv.advance (inv : s.Inv config) (here : s.calls i = some (request, pc))
    (advances : s.advance i request pc = some s') : Next config s s' i := by
  have holds := inv.calls i request pc here
  cases pc with
  | opening | returned | done | threw | crashed => cases advances
  | existsPrimary owner currency =>
    cases advances
    obtain ⟨none, fresh, multiple⟩ := holds
    refine inv.goto ⟨none, fresh.unmade, fun second => ⟨multiple, ?_⟩⟩
    have found : s.select i (IsPrimary owner) ≠ [] := by simpa using second
    obtain ⟨id, member⟩ := List.exists_mem_of_ne_nil _ found
    have is := (List.mem_filter.mp member).2
    rw [RowStore.view_of_not_held (none id)] at is
    exact ⟨id, is⟩
  | commitCreate wallet =>
    cases advances
    exact inv.commitCreate holds
  | selecting owner walletId =>
    cases advances
    obtain ⟨none, fresh⟩ := holds
    refine inv.goto ⟨fresh, fun id held => (none id held).elim, fun id member => ?_, by simp⟩
    have is := (List.mem_filter.mp ((List.mem_insertionSort _).mp member)).2
    rw [RowStore.view_of_not_held (none id)] at is
    obtain ⟨wallet, row, same⟩ := (Option.any_eq_true _ _).mp is
    exact ⟨wallet, row, of_decide_eq_true same⟩
  | locking owner walletId remaining wallets =>
    cases remaining with
    | nil =>
      cases advances
      exact inv.selected holds
    | cons id remaining =>
      simp only [System.advance] at advances
      split_ifs at advances with free
      split at advances <;> cases advances
      next =>
        exact inv.goto ⟨holds.1, holds.2.1,
          fun l member => holds.2.2.1 l (List.mem_cons_of_mem _ member), holds.2.2.2⟩
      next wallet seen => exact inv.lockNext holds free seen
  | clearing owner walletId =>
    cases advances
    obtain ⟨fresh, locks, locked, multiple⟩ := holds
    refine inv.goto ⟨fresh, locks, locked, multiple, fun id member => ?_⟩
    have is := (List.mem_filter.mp member).2
    by_cases held : s.wallets.holder id = some i
    · exact locks id held
    · rw [RowStore.view_of_not_held held] at is
      obtain ⟨wallet, row, primary⟩ := (Option.any_eq_true _ _).mp is
      exact ⟨wallet, row, (of_decide_eq_true primary).1⟩
  | clearingRows owner walletId remaining =>
    cases remaining with
    | nil =>
      cases advances
      exact inv.goto ⟨holds.1, holds.2.1, holds.2.2.1, holds.2.2.2.1⟩
    | cons id remaining =>
      have rest : (Pc.clearingRows owner walletId remaining).Holds config s i :=
        ⟨holds.1, holds.2.1, holds.2.2.1, holds.2.2.2.1,
          fun l member => holds.2.2.2.2 l (List.mem_cons_of_mem _ member)⟩
      simp only [System.advance] at advances
      split_ifs at advances with free
      split at advances
      next =>
        cases advances
        exact inv.goto rest
      next wallet seen =>
        split_ifs at advances <;> cases advances
        · exact inv.clearNext holds free seen
        · exact inv.goto rest
  | setting owner walletId => exact inv.setting holds advances
  | commitPrimary owner walletId =>
    cases advances
    exact inv.commitPrimary holds
  | reading owner walletId =>
    obtain ⟨none, fresh⟩ := holds
    simp only [System.advance] at advances
    split at advances
    next =>
      cases advances
      exact inv.goto ⟨none, fresh.unmade⟩
    next =>
      split_ifs at advances <;> cases advances
      · exact inv.goto none
      · exact inv.goto ⟨none, fresh.unmade⟩
  | updatingStatus walletId status =>
    simp only [System.advance] at advances
    split_ifs at advances with free
    split at advances <;> cases advances
    next => exact inv.goto holds.1
    next wallet seen => exact inv.updateStatus holds.1 free seen

theorem Inv.begin (inv : s.Inv config) (new : s.calls i = none) :
    Next config s (s.begin config i request) i := by
  obtain ⟨none, fresh⟩ := inv.idle i new
  cases request with
  | create owner currency =>
    simp only [System.begin]
    split_ifs
    · cases mode : config.walletsPerOwner with
      | single => exact inv.goto ⟨none, fresh.unmade, fun second => by cases second⟩
      | multiple => exact inv.goto ⟨none, fresh, mode⟩
    · exact inv.goto ⟨none, fresh.unmade⟩
  | setPrimary owner walletId => exact inv.goto ⟨none, fresh⟩
  | setStatus walletId status => exact inv.goto ⟨none, fresh⟩

theorem unmade_of_running (holds : pc.Holds config s i) (running : pc.ended = false) :
    s.Unmade i := by
  cases pc with
  | returned | done | threw | crashed => cases running
  | existsPrimary => exact holds.2.1.unmade
  | opening => exact holds.2.1
  | commitCreate => exact holds.1
  | selecting | reading | updatingStatus => exact holds.2.unmade
  | locking | clearing | clearingRows | setting | commitPrimary => exact holds.1.unmade

theorem Inv.fail (inv : s.Inv config) (here : s.calls i = some (request, pc)) {message : String}
    (running : pc.ended = false) :
    Next config s ((s.rollback i).goto i request (onFailure config message pc)) i := by
  have unmade := unmade_of_running (inv.calls i request pc here) running
  cases pc with
  | opening attempt accounts =>
    refine inv.rollback (holds_onError unmade fun violated => ?_)
    cases violated
  | _ => exact inv.throw unmade _

/-- Who takes the step. -/
def Action.caller : Action ι → ι
  | .call i _ | .insert i _ | .advance i | .fail i _ | .crash i => i

theorem Inv.step (inv : s.Inv config) {action : Action ι}
    (stepped : step config action s = some s') : Next config s s' action.caller := by
  cases action with
  | call i request =>
    simp only [System.step] at stepped
    split_ifs at stepped with new
    cases stepped
    exact inv.begin new
  | insert i id =>
    obtain ⟨⟨request, pc⟩, here, inserts⟩ := Option.bind_eq_some_iff.mp stepped
    exact inv.insertNext here inserts
  | advance i =>
    obtain ⟨⟨request, pc⟩, here, advances⟩ := Option.bind_eq_some_iff.mp stepped
    exact inv.advance here advances
  | fail i message =>
    obtain ⟨⟨request, pc⟩, here, fails⟩ := Option.bind_eq_some_iff.mp stepped
    dsimp only at fails
    split_ifs at fails with ended
    cases fails
    exact inv.fail here (by simpa using ended)
  | crash i =>
    obtain ⟨⟨request, pc⟩, here, crashes⟩ := Option.bind_eq_some_iff.mp stepped
    dsimp only at crashes
    split_ifs at crashes
    cases crashes
    exact inv.rollback noWallets_rollback

theorem Inv.start : (start : System ι).Inv config where
  wallets := .start
  accounts _ _ := ⟨rfl, rfl⟩
  primary := by simp [System.start, RowStore.start]
  idle := by simp [System.start, RowStore.start, NoWallets, Fresh]
  calls := by simp [System.start]

theorem Inv.reaches {Admits : Action ι → System ι → Prop} (inv : s.Inv config)
    (run : Reaches config Admits s s') : s'.Inv config :=
  run.invariant (Inv config) (fun _ _ _ inv _ stepped => (inv.step stepped).inv) inv

end System

end Finstack.Wallets
