import Finstack.Soundness.Wallets.Primary

/-! # Concurrent creates

In multiple mode a create fails because of another wallet of its currency, or because its statements
fail. A race for the primary wallet it loses at most once. It waits only for the commit of another
call, and it holds no wallet while it waits.
-/

namespace Finstack.Wallets

open Foundation

variable {ι : Type} [DecidableEq ι]

/-- The owner and the currency that a call of `create` is for. -/
def Request.creates (config : WalletsConfig) : Request → Option (Owner × String)
  | .create owner currency => some (owner, currency.getD config.defaultCurrency)
  | .setPrimary _ _ | .setStatus _ _ => none

/-- Where a call with this request can be. -/
def Pc.Serves (config : WalletsConfig) (request : Request) : Pc → Prop
  | .existsPrimary owner currency => request.creates config = some (owner, currency)
  | .opening attempt accounts =>
    request.creates config = some (attempt.owner, attempt.currency) ∧
      (attempt.retry = true → attempt.isPrimary = false) ∧ accounts.length ≤ 3
  | .commitCreate wallet => request.creates config = some (wallet.owner, wallet.currency)
  | .returned wallet =>
    ∀ asked, request.creates config = some asked → asked = (wallet.owner, wallet.currency)
  | .threw _ | .crashed => True
  | .selecting _ _ | .locking _ _ _ _ | .clearing _ _ | .clearingRows _ _ _ | .setting _ _
  | .commitPrimary _ _ | .reading _ _ | .updatingStatus _ _ | .done =>
    request.creates config = none

/-- How many statements a create may still need. -/
def Pc.rank : Pc → Nat
  | .existsPrimary _ _ => 12
  | .opening attempt accounts => (if attempt.retry then 0 else 6) + (5 - accounts.length)
  | .commitCreate _ => 1
  | _ => 0

namespace System

variable {s s' : System ι} {i j : ι} {config : WalletsConfig} {request : Request} {pc : Pc}
  {id : Uuid} {asked : Owner × String}

/-- Every call is where its request can take it. -/
def Serves (config : WalletsConfig) (s : System ι) : Prop :=
  ∀ i request pc, s.calls i = some (request, pc) → pc.Serves config request

theorem Serves.put (serves : s.Serves config)
    (calls : s'.calls = Function.update s.calls i (some (request, pc)))
    (new : pc.Serves config request) : s'.Serves config := by
  intro j request' pc' here
  rw [calls] at here
  rcases eq_or_ne j i with rfl | other
  · rw [Function.update_self] at here
    cases here
    exact new
  · rw [Function.update_of_ne other] at here
    exact serves j request' pc' here

/-- The first attempt. -/
theorem serves_first {owner : Owner} {currency : String} {isPrimary : Bool}
    (creates : request.creates config = some (owner, currency)) :
    (Pc.opening ⟨owner, currency, isPrimary, false⟩ []).Serves config request := by
  refine ⟨creates, ?_, by simp⟩
  intro retry
  cases retry

theorem serves_onError {attempt : Attempt} {accounts : List Uuid} {error : Err}
    (serves : (Pc.opening attempt accounts).Serves config request) :
    (config.onError attempt error).Serves config request := by
  unfold WalletsConfig.onError
  split_ifs
  · trivial
  · trivial
  · split
    · trivial
    · exact ⟨serves.1, fun _ => rfl, by simp⟩
  · trivial

theorem Serves.openAccount (serves : s.Serves config) {purpose : String} {attempt : Attempt}
    {accounts : List Uuid} (here : (Pc.opening attempt accounts).Serves config request)
    (room : accounts.length < 3)
    (opens : s.openAccount i request id purpose attempt accounts = some s') :
    s'.Serves config := by
  unfold System.openAccount at opens
  split_ifs at opens
  cases opens
  refine serves.put rfl ⟨here.1, here.2.1, ?_⟩
  rw [List.length_append, List.length_singleton]
  omega

theorem Serves.insertNext (serves : s.Serves config) (here : s.calls i = some (request, pc))
    (inserts : s.insertNext config i id request pc = some s') : s'.Serves config := by
  have now := serves i request pc here
  cases pc <;> try cases inserts
  case opening attempt accounts =>
    rcases accounts with _ | ⟨available, _ | ⟨pending, _ | ⟨reserved, _ | ⟨more, accounts⟩⟩⟩⟩
    · exact serves.openAccount now (by simp) inserts
    · exact serves.openAccount now (by simp) inserts
    · exact serves.openAccount now (by simp) inserts
    · simp only [System.insertNext, System.insertWallet] at inserts
      split_ifs at inserts
      split at inserts <;> cases inserts
      · exact serves.put rfl now.1
      · exact serves.put rfl (serves_onError now)
    · cases inserts

theorem Serves.advance (serves : s.Serves config) (here : s.calls i = some (request, pc))
    (advances : s.advance i request pc = some s') : s'.Serves config := by
  have now := serves i request pc here
  cases pc with
  | opening | returned | done | threw | crashed => cases advances
  | existsPrimary owner currency =>
    cases advances
    exact serves.put rfl (serves_first now)
  | commitCreate wallet =>
    cases advances
    refine serves.put (s := s) rfl fun asked creates => ?_
    exact Option.some.inj (creates.symm.trans now)
  | selecting owner walletId =>
    cases advances
    exact serves.put rfl now
  | locking owner walletId remaining wallets =>
    cases remaining with
    | nil =>
      cases advances
      unfold System.selected
      split
      · exact serves.put (s := s) rfl trivial
      · split_ifs
        · exact serves.put rfl now
        · exact serves.put (s := s) rfl trivial
        · exact serves.put rfl now
    | cons id remaining =>
      simp only [System.advance] at advances
      split_ifs at advances
      split at advances <;> cases advances <;> exact serves.put rfl now
  | clearing owner walletId =>
    cases advances
    exact serves.put rfl now
  | clearingRows owner walletId remaining =>
    cases remaining with
    | nil =>
      cases advances
      exact serves.put rfl now
    | cons id remaining =>
      simp only [System.advance] at advances
      split_ifs at advances
      split at advances
      · cases advances
        exact serves.put rfl now
      · split_ifs at advances <;> cases advances <;> exact serves.put (s := s) rfl now
  | setting owner walletId =>
    simp only [System.advance] at advances
    split at advances
    · cases advances
      exact serves.put rfl now
    · split at advances <;> cases advances
      · exact serves.put (s := s) rfl now
      · exact serves.put (s := s) rfl trivial
  | commitPrimary owner walletId =>
    cases advances
    exact serves.put (s := s) rfl now
  | reading owner walletId =>
    have another : ∀ {wallet}, (Pc.returned wallet).Serves config request := by
      intro wallet asked creates
      rw [show request.creates config = none from now] at creates
      cases creates
    simp only [System.advance] at advances
    split at advances
    · cases advances
      exact serves.put rfl trivial
    · split_ifs at advances <;> cases advances
      · exact serves.put rfl another
      · exact serves.put rfl trivial
  | updatingStatus walletId status =>
    simp only [System.advance] at advances
    split_ifs at advances
    split at advances <;> cases advances
    · exact serves.put rfl now
    · exact serves.put (s := s) rfl now

theorem Serves.begin (serves : s.Serves config) : (s.begin config i request).Serves config := by
  cases request with
  | create owner currency =>
    simp only [System.begin]
    split_ifs
    · split
      · exact serves.put rfl (serves_first rfl)
      · exact serves.put rfl rfl
    · exact serves.put rfl trivial
  | setPrimary owner walletId => exact serves.put rfl rfl
  | setStatus walletId status => exact serves.put rfl rfl

theorem Serves.step (serves : s.Serves config) {action : Action ι}
    (stepped : step config action s = some s') : s'.Serves config := by
  cases action with
  | call i request =>
    simp only [System.step] at stepped
    split_ifs at stepped
    cases stepped
    exact serves.begin
  | insert i id =>
    obtain ⟨⟨request, pc⟩, here, inserts⟩ := Option.bind_eq_some_iff.mp stepped
    exact serves.insertNext here inserts
  | advance i =>
    obtain ⟨⟨request, pc⟩, here, advances⟩ := Option.bind_eq_some_iff.mp stepped
    exact serves.advance here advances
  | fail i message =>
    obtain ⟨⟨request, pc⟩, here, fails⟩ := Option.bind_eq_some_iff.mp stepped
    dsimp only at fails
    split_ifs at fails
    cases fails
    refine serves.put (s := s) rfl ?_
    have now := serves i request pc here
    cases pc with
    | opening attempt accounts => exact serves_onError now
    | _ => trivial
  | crash i =>
    obtain ⟨⟨request, pc⟩, here, crashes⟩ := Option.bind_eq_some_iff.mp stepped
    dsimp only at crashes
    split_ifs at crashes
    cases crashes
    exact serves.put (s := s) rfl trivial

theorem Reaches.serves {Admits : Action ι → System ι → Prop} (serves : s.Serves config)
    (run : Reaches config Admits s s') : s'.Serves config :=
  run.invariant (Serves config) (fun _ _ _ serves _ stepped => serves.step stepped) serves

/-! ## A create whose currency nobody else asks for -/

/-- Nobody but `i` asks for this wallet, and the statements of `i` are executed. -/
def Undisturbed (config : WalletsConfig) (i : ι) (asked : Owner × String) :
    Action ι → System ι → Prop
  | .call k request, _ => request.creates config = some asked → k = i
  | .fail k _, _ | .crash k, _ => k ≠ i
  | .insert _ _, _ | .advance _, _ => True

instance (i : ι) (asked : Owner × String) :
    ∀ (action : Action ι) (s : System ι), Decidable (Undisturbed config i asked action s)
  | .call _ request, _ => inferInstanceAs (Decidable (request.creates config = some asked → _))
  | .fail _ _, _ | .crash _, _ => inferInstanceAs (Decidable (_ ≠ _))
  | .insert _ _, _ | .advance _, _ => .isTrue trivial

/-- The wallet is committed. -/
def Opened (s : System ι) (asked : Owner × String) (wallet : Wallet) : Prop :=
  ∃ row, s.wallets.rows wallet.id = some row ∧ row.owner = asked.1 ∧ row.currency = asked.2

/-- What `i` has come to: if it is over, it has returned a committed wallet. -/
def Succeeds (s : System ι) (asked : Owner × String) (pc : Pc) : Prop :=
  (∀ error, pc ≠ .threw error) ∧ pc ≠ .crashed ∧ ∀ wallet, pc = .returned wallet →
    s.Opened asked wallet

structure Sole (config : WalletsConfig) (i : ι) (asked : Owner × String) (s : System ι) : Prop where
  inv : s.Inv config
  serves : s.Serves config
  asker : ∀ k request pc, s.calls k = some (request, pc) → request.creates config = some asked → k = i
  mine : s.wallets.Every fun id wallet =>
    wallet.owner = asked.1 → wallet.currency = asked.2 → id ∈ s.inserted i
  succeeds : ∀ request pc, s.calls i = some (request, pc) → request.creates config = some asked →
    s.Succeeds asked pc

theorem Opened.moves {wallet : Wallet} (opened : s.Opened asked wallet) (moves : s.Moves s' j) :
    s'.Opened asked wallet := by
  obtain ⟨row, there, owner, currency⟩ := opened
  have stays := moves.stays wallet.id
  rw [there] at stays
  obtain ⟨row', there', owner', currency'⟩ := stays.some
  exact ⟨row', there', owner'.trans owner, currency'.trans currency⟩

theorem Succeeds.moves (succeeds : s.Succeeds asked pc) (moves : s.Moves s' j) :
    s'.Succeeds asked pc :=
  ⟨succeeds.1, succeeds.2.1, fun wallet returned => (succeeds.2.2 wallet returned).moves moves⟩

omit [DecidableEq ι] in
/-- A call that is not over has nothing to show. -/
theorem succeeds_of_running (running : pc.ended = false) : s.Succeeds asked pc := by
  refine ⟨?_, ?_, ?_⟩
  · rintro error rfl
    cases running
  · rintro rfl
    cases running
  · rintro wallet rfl
    cases running

/-- The indexes do not refuse the only wallet of its currency for its currency. -/
theorem Sole.not_taken (sole : s.Sole config i asked) {attempt : Attempt} {accounts : List Uuid}
    (here : s.calls i = some (request, .opening attempt accounts))
    (owner : attempt.owner = asked.1) (currency : attempt.currency = asked.2) :
    ¬ s.wallets.Taken (HasCurrency attempt.owner attempt.currency) s.walletIds i id := by
  obtain ⟨none, unmade, -⟩ := sole.inv.calls i request _ here
  rintro ⟨l, -, -, -, is⟩
  rw [RowStore.view_of_not_held (none l)] at is
  obtain ⟨wallet, row, same⟩ := (Option.any_eq_true _ _).mp is
  obtain ⟨owner', currency'⟩ := of_decide_eq_true same
  have inserted := sole.mine l wallet (.inl row) (owner'.trans owner) (currency'.trans currency)
  obtain ⟨-, absent | ⟨gone, -⟩⟩ := unmade.1 l inserted
  · rw [absent.1] at row
    cases row
  · rw [gone] at row
    cases row

theorem onError_primary (multiple : config.walletsPerOwner = .multiple) {attempt : Attempt}
    (first : attempt.retry = false) (owner : Owner) :
    config.onError attempt (.database (.uniqueViolation (WalletIndex.primary.name owner))) =
      .opening { attempt with isPrimary := false, retry := true } [] := by
  unfold WalletsConfig.onError
  cases owner <;> simp [isUniqueViolation, WalletIndex.name, CURRENCY_CONSTRAINTS,
    PRIMARY_CONSTRAINTS, first, multiple]

/-- A move of a create whose currency nobody else asks for: it comes closer to its end, and does not
throw. -/
theorem Sole.insertNext (sole : s.Sole config i asked)
    (multiple : config.walletsPerOwner = .multiple) (here : s.calls i = some (request, pc))
    (creates : request.creates config = some asked)
    (inserts : s.insertNext config i id request pc = some s') :
    ∃ pc', s'.calls i = some (request, pc') ∧ pc'.rank < pc.rank ∧ pc'.ended = false := by
  have serves := sole.serves i request pc here
  cases pc <;> try cases inserts
  case opening attempt accounts =>
    obtain ⟨own, second, room⟩ := serves
    obtain ⟨owner, currency⟩ := Prod.ext_iff.mp (Option.some.inj (own.symm.trans creates))
    have opens : ∀ {purpose : String}, accounts.length < 3 →
        s.openAccount i request id purpose attempt accounts = some s' →
        ∃ pc', s'.calls i = some (request, pc') ∧ pc'.rank < (Pc.opening attempt accounts).rank ∧
          pc'.ended = false := by
      intro purpose short opens
      unfold System.openAccount at opens
      split_ifs at opens
      cases opens
      refine ⟨_, Function.update_self .., ?_, rfl⟩
      simp only [Pc.rank, List.length_append, List.length_singleton]
      omega
    rcases accounts with _ | ⟨available, _ | ⟨pending, _ | ⟨reserved, _ | ⟨more, accounts⟩⟩⟩⟩
    · exact opens (by simp) inserts
    · exact opens (by simp) inserts
    · exact opens (by simp) inserts
    · simp only [System.insertNext, System.insertWallet] at inserts
      split_ifs at inserts
      split at inserts <;> cases inserts
      next =>
        refine ⟨_, Function.update_self .., ?_, rfl⟩
        simp only [Pc.rank, List.length_cons, List.length_nil]
        omega
      next constraint violates =>
        obtain ⟨index, covers, rfl, taken⟩ := checkIndexes_violates violates
        cases index with
        | currency => exact (sole.not_taken here owner currency taken).elim
        | primary =>
          -- the second attempt is not for a primary wallet
          have first : attempt.retry = false := by
            by_contra retry
            have other : attempt.isPrimary = false := second (by simpa using retry)
            have this : attempt.isPrimary = true := covers
            rw [other] at this
            cases this
          have next := onError_primary multiple first
            (newWallet id attempt available pending reserved).owner
          refine ⟨_, Function.update_self .., ?_, ?_⟩
          · rw [next]
            simp [Pc.rank, first]
          · rw [next]
            rfl
    · cases inserts

theorem Sole.advance (sole : s.Sole config i asked) (here : s.calls i = some (request, pc))
    (creates : request.creates config = some asked)
    (advances : s.advance i request pc = some s') :
    ∃ pc', s'.calls i = some (request, pc') ∧ pc'.rank < pc.rank ∧ s'.Succeeds asked pc' := by
  have serves := sole.serves i request pc here
  have holds := sole.inv.calls i request pc here
  have create : ∀ {P : Prop}, request.creates config = none → P := by
    intro P other
    rw [creates] at other
    cases other
  cases pc with
  | opening | returned | done | threw | crashed => cases advances
  | existsPrimary owner currency =>
    cases advances
    refine ⟨_, Function.update_self .., ?_, succeeds_of_running rfl⟩
    simp [Pc.rank]
  | commitCreate wallet =>
    cases advances
    obtain ⟨owner, currency⟩ := Prod.ext_iff.mp (Option.some.inj (serves.symm.trans creates))
    obtain ⟨-, -, -, seen, -⟩ := holds
    refine ⟨_, Function.update_self .., by simp [Pc.rank], by simp, by simp, ?_⟩
    rintro wallet' same
    cases same
    exact ⟨wallet, seen, owner, currency⟩
  | selecting | locking | clearing | clearingRows | setting | commitPrimary | reading
  | updatingStatus => exact create serves

/-! ### Any step -/

theorem selected_calls {owner : Owner} {walletId : Uuid} {wallets : List Wallet} :
    ∃ pc', (s.selected i request owner walletId wallets).calls =
      Function.update s.calls i (some (request, pc')) := by
  unfold System.selected
  split
  · exact ⟨_, rfl⟩
  · split_ifs <;> exact ⟨_, rfl⟩

theorem advance_calls (advances : s.advance i request pc = some s') :
    ∃ pc', s'.calls = Function.update s.calls i (some (request, pc')) := by
  unfold System.advance at advances
  split at advances
  case h_4 => 
    cases advances
    exact selected_calls
  all_goals
    repeat' split at advances
    all_goals cases advances <;> exact ⟨_, rfl⟩

theorem insertNext_calls (inserts : s.insertNext config i id request pc = some s') :
    ∃ pc', s'.calls = Function.update s.calls i (some (request, pc')) := by
  have opens : ∀ {purpose attempt accounts},
      s.openAccount i request id purpose attempt accounts = some s' →
      ∃ pc', s'.calls = Function.update s.calls i (some (request, pc')) := by
    intro purpose attempt accounts opens
    unfold System.openAccount at opens
    split_ifs at opens
    cases opens
    exact ⟨_, rfl⟩
  unfold System.insertNext at inserts
  split at inserts
  · exact opens inserts
  · exact opens inserts
  · exact opens inserts
  · unfold System.insertWallet at inserts
    split_ifs at inserts
    split at inserts <;> cases inserts <;> exact ⟨_, rfl⟩
  · cases inserts

theorem begin_calls : ∃ pc', (s.begin config i request).calls =
    Function.update s.calls i (some (request, pc')) := by
  cases request with
  | create owner currency =>
    simp only [System.begin]
    split_ifs
    · split <;> exact ⟨_, rfl⟩
    · exact ⟨_, rfl⟩
  | setPrimary owner walletId => exact ⟨_, rfl⟩
  | setStatus walletId status => exact ⟨_, rfl⟩

/-- A step begins a call, or it takes one further that has begun. -/
theorem step_calls {action : Action ι} (stepped : step config action s = some s') :
    (∃ i request, action = .call i request ∧ s.calls i = none ∧ s' = s.begin config i request) ∨
      ∃ request pc pc', s.calls action.caller = some (request, pc) ∧
        s'.calls = Function.update s.calls action.caller (some (request, pc')) := by
  cases action with
  | call i request =>
    simp only [System.step] at stepped
    split_ifs at stepped with new
    cases stepped
    exact .inl ⟨i, request, rfl, new, rfl⟩
  | insert i id =>
    obtain ⟨⟨request, pc⟩, here, inserts⟩ := Option.bind_eq_some_iff.mp stepped
    obtain ⟨pc', calls⟩ := insertNext_calls inserts
    exact .inr ⟨request, pc, pc', here, calls⟩
  | advance i =>
    obtain ⟨⟨request, pc⟩, here, advances⟩ := Option.bind_eq_some_iff.mp stepped
    obtain ⟨pc', calls⟩ := advance_calls advances
    exact .inr ⟨request, pc, pc', here, calls⟩
  | fail i message =>
    obtain ⟨⟨request, pc⟩, here, fails⟩ := Option.bind_eq_some_iff.mp stepped
    dsimp only at fails
    split_ifs at fails
    cases fails
    exact .inr ⟨request, pc, _, here, rfl⟩
  | crash i =>
    obtain ⟨⟨request, pc⟩, here, crashes⟩ := Option.bind_eq_some_iff.mp stepped
    dsimp only at crashes
    split_ifs at crashes
    cases crashes
    exact .inr ⟨request, pc, _, here, rfl⟩

/-- A create that has begun takes a step: it comes closer to its end, and does not throw. -/
theorem Sole.move (sole : s.Sole config i asked) (multiple : config.walletsPerOwner = .multiple)
    (here : s.calls i = some (request, pc)) (creates : request.creates config = some asked)
    {action : Action ι} (admits : Undisturbed config i asked action s) (mine : action.caller = i)
    (stepped : step config action s = some s') :
    ∃ pc', s'.calls i = some (request, pc') ∧ pc'.rank < pc.rank ∧ s'.Succeeds asked pc' := by
  cases action with
  | call k request' =>
    obtain rfl : k = i := mine
    simp only [System.step] at stepped
    split_ifs at stepped with new
    rw [here] at new
    cases new
  | insert k id =>
    obtain rfl : k = i := mine
    obtain ⟨⟨request', pc'⟩, here', inserts⟩ := Option.bind_eq_some_iff.mp stepped
    rw [here] at here'
    cases here'
    obtain ⟨pc', there, less, running⟩ := sole.insertNext multiple here creates inserts
    exact ⟨pc', there, less, succeeds_of_running running⟩
  | advance k =>
    obtain rfl : k = i := mine
    obtain ⟨⟨request', pc'⟩, here', advances⟩ := Option.bind_eq_some_iff.mp stepped
    rw [here] at here'
    cases here'
    exact sole.advance here creates advances
  | fail k message => exact (admits mine).elim
  | crash k => exact (admits mine).elim

theorem Sole.step (sole : s.Sole config i asked) (multiple : config.walletsPerOwner = .multiple)
    (allowed : asked.2 ∈ config.allowedCurrencies) {action : Action ι}
    (admits : Undisturbed config i asked action s) (stepped : step config action s = some s') :
    s'.Sole config i asked := by
  obtain ⟨inv, moves⟩ := sole.inv.step stepped
  have asker : ∀ k request pc, s'.calls k = some (request, pc) →
      request.creates config = some asked → k = i := by
    intro k request pc here creates
    rcases eq_or_ne k action.caller with rfl | other
    · rcases step_calls stepped with ⟨k, request', rfl, -, rfl⟩ | ⟨request', pc', pc'', before, calls⟩
      · obtain ⟨pc', calls⟩ : ∃ pc', (s.begin config k request').calls =
            Function.update s.calls k (some (request', pc')) := begin_calls
        rw [calls] at here
        obtain ⟨rfl, -⟩ : request' = request ∧ pc' = pc := by simpa [Action.caller] using here
        exact admits creates
      · rw [calls, Function.update_self] at here
        cases here
        exact sole.asker _ request pc' before creates
    · rw [moves.calls k other] at here
      exact sole.asker k request pc here creates
  refine ⟨inv, sole.serves.step stepped, asker, ?_, ?_⟩
  · intro id wallet shows_ owner currency
    have stays : ∀ {l}, l ∈ s.inserted i → l ∈ s'.inserted i := by
      intro l member
      rcases eq_or_ne i action.caller with rfl | other
      · exact moves.grows member
      · rw [(moves.made i other).1]
        exact member
    rcases moves.versions id wallet shows_ with ⟨before, there, owner', currency'⟩ |
      ⟨inserted, request, attempt, accounts, here, owner', currency'⟩
    · exact stays (sole.mine id before there (owner'.trans owner) (currency'.trans currency))
    · have creates := (sole.serves _ request _ here).1
      rw [owner', currency', owner, currency] at creates
      rw [← sole.asker _ request _ here creates]
      exact inserted
  · intro request pc here creates
    rcases eq_or_ne i action.caller with mine | other
    · rcases step_calls stepped with ⟨k, request', rfl, new, rfl⟩ | ⟨request', pc', pc'', before, calls⟩
      · obtain rfl : i = k := mine
        cases request' with
        | create owner currency =>
          simp only [System.begin, multiple] at here
          split_ifs at here with may
          · obtain ⟨-, rfl⟩ : _ ∧ Pc.existsPrimary owner _ = pc := by simpa [System.goto] using here
            exact succeeds_of_running rfl
          · obtain ⟨rfl, -⟩ : Request.create owner currency = request ∧ _ = pc := by
              simpa [System.goto] using here
            obtain rfl := Option.some.inj creates
            exact (may allowed).elim
        | setPrimary owner walletId =>
          obtain ⟨rfl, -⟩ : Request.setPrimary owner walletId = request ∧ _ = pc := by
            simpa [System.begin, System.goto] using here
          cases creates
        | setStatus walletId status =>
          obtain ⟨rfl, -⟩ : Request.setStatus walletId status = request ∧ _ = pc := by
            simpa [System.begin, System.goto] using here
          cases creates
      · rw [← mine] at before calls
        rw [calls, Function.update_self] at here
        cases here
        obtain ⟨pc', there, -, succeeds⟩ := sole.move multiple before creates admits mine.symm stepped
        rw [calls, Function.update_self] at there
        cases there
        exact succeeds
    · rw [moves.calls i other] at here
      exact (sole.succeeds request pc here creates).moves moves

/-! ## Two creates -/

theorem noWallets_of_ended (holds : pc.Holds config s i) (ended : pc.ended = true) :
    s.NoWallets i := by
  cases pc with
  | returned | done | crashed => exact holds
  | threw => exact holds.1
  | _ => cases ended

/-- A create that holds a wallet is at its commit. -/
theorem commit_of_holder (inv : s.Inv config) (serves : s.Serves config)
    (here : s.calls i = some (request, pc)) (creates : request.creates config = some asked)
    (held : s.wallets.holder id = some i) : ∃ wallet, pc = .commitCreate wallet := by
  have holds := inv.calls i request pc here
  have now := serves i request pc here
  have create : ∀ {P : Prop}, request.creates config = none → P := by
    intro P other
    rw [creates] at other
    cases other
  cases pc with
  | commitCreate wallet => exact ⟨wallet, rfl⟩
  | existsPrimary | opening | threw => exact (holds.1 id held).elim
  | returned | crashed => exact (holds id held).elim
  | selecting | locking | clearing | clearingRows | setting | commitPrimary | reading
  | updatingStatus | done => exact create now

/-- Every call but `i` and `j` is over. -/
def OthersOver (s : System ι) (i j : ι) : Prop :=
  ∀ k, k ≠ i → k ≠ j → ∀ request pc, s.calls k = some (request, pc) → pc.ended = true

/-- There are ids left. -/
def HasIds (s : System ι) : Prop := (∃ id, id ∉ s.walletIds) ∧ ∃ id, id ∉ s.accountIds

/-- Neither `i` nor `j` has a statement that can be executed. -/
def AtRest (config : WalletsConfig) (s : System ι) (i j : ι) : Prop :=
  ∀ k, k = i ∨ k = j → step config (.advance k) s = none ∧ ∀ id, step config (.insert k id) s = none

omit [DecidableEq ι] in
theorem OthersOver.symm (others : s.OthersOver i j) : s.OthersOver j i :=
  fun k first second => others k second first

theorem AtRest.symm (rest : AtRest config s i j) : AtRest config s j i :=
  fun k one => rest k one.symm

/-- When the others are over, two creates are at rest only when this one is over, too. -/
theorem ended_of_atRest (inv : s.Inv config) (serves : s.Serves config)
    (here : s.calls i = some (request, pc)) (creates : request.creates config = some asked)
    {request' : Request} {pc' : Pc} {asked' : Owner × String}
    (there : s.calls j = some (request', pc')) (creates' : request'.creates config = some asked')
    (others : s.OthersOver i j) (ids : s.HasIds) (rest : AtRest config s i j) :
    pc.ended = true := by
  have now := serves i request pc here
  obtain ⟨advance, insert⟩ := rest i (.inl rfl)
  simp only [System.step, here, Option.bind_some] at advance insert
  have create : ∀ {P : Prop}, request.creates config = none → P := by
    intro P other
    rw [creates] at other
    cases other
  cases pc with
  | returned | done | threw | crashed => rfl
  | existsPrimary | commitCreate => cases advance
  | selecting | locking | clearing | clearingRows | setting | commitPrimary | reading
  | updatingStatus => exact create now
  | opening attempt accounts =>
    obtain ⟨⟨walletId, newWalletId⟩, accountId, newAccountId⟩ := ids
    obtain ⟨-, -, room⟩ := now
    rcases accounts with _ | ⟨available, _ | ⟨pending, _ | ⟨reserved, _ | ⟨more, accounts⟩⟩⟩⟩
    · exact absurd (insert accountId) (by simp [System.insertNext, System.openAccount, newAccountId])
    · exact absurd (insert accountId) (by simp [System.insertNext, System.openAccount, newAccountId])
    · exact absurd (insert accountId) (by simp [System.insertNext, System.openAccount, newAccountId])
    · -- it waits for another call, which can only be the other create, at its commit
      have blocked := insert walletId
      have new : (newWallet walletId attempt available pending reserved).id ∉ s.walletIds := newWalletId
      simp only [System.insertNext, System.insertWallet, new, if_false] at blocked
      split at blocked <;> try cases blocked
      next waits =>
        obtain ⟨index, l, -, -, ⟨⟨k, held, other⟩, -⟩, -⟩ := checkIndexes_waits waits
        have held : s.wallets.holder l = some k := held
        cases calls : s.calls k with
        | none => exact ((inv.idle k calls).1 l held).elim
        | some call =>
          by_cases second : k = j
          · subst second
            obtain ⟨wallet, rfl⟩ := commit_of_holder inv serves there creates' held
            have goes := (rest k (.inr rfl)).1
            simp [System.step, there, System.advance] at goes
          · have ended := others k other second _ _ calls
            exact (noWallets_of_ended (inv.calls k _ _ calls) ended l held).elim
    · simp only [List.length_cons] at room
      omega

theorem Sole.start (i : ι) (asked : Owner × String) : (start : System ι).Sole config i asked where
  inv := .start
  serves := by simp [System.start, Serves]
  asker := by simp [System.start]
  mine := .start
  succeeds := by simp [System.start]

theorem Sole.reaches (multiple : config.walletsPerOwner = .multiple)
    (allowed : asked.2 ∈ config.allowedCurrencies) {Admits : Action ι → System ι → Prop}
    (admits : ∀ action s, Admits action s → Undisturbed config i asked action s)
    (run : Reaches config Admits System.start s) : s.Sole config i asked :=
  run.invariant (Sole config i asked) (fun action s _ sole may stepped =>
    sole.step multiple allowed (admits action s may) stepped) (.start i asked)

/-! ## Main results -/

/-- An owner of wallets has one primary wallet. -/
def OnePrimary (s : System ι) (owner : Owner) : Prop :=
  (∃ id wallet, s.wallets.rows id = some wallet ∧ wallet.owner = owner) →
    ∃! id, (s.wallets.rows id).any (IsPrimary owner) = true

def OnePerCurrency (s : System ι) (owner : Owner) : Prop :=
  ∀ id id' wallet wallet', s.wallets.rows id = some wallet → s.wallets.rows id' = some wallet' →
    wallet.owner = owner → wallet'.owner = owner → wallet.currency = wallet'.currency → id = id'

def OneWallet (s : System ι) (owner : Owner) : Prop :=
  ∀ id id' wallet wallet', s.wallets.rows id = some wallet → s.wallets.rows id' = some wallet' →
    wallet.owner = owner → wallet'.owner = owner → id = id'

/-- No row that the call has inserted is there. -/
def LeavesNothing (s : System ι) (i : ι) : Prop :=
  (∀ id ∈ s.inserted i, s.wallets.rows id = none) ∧ ∀ id ∈ s.opened i, s.accounts.rows id = none

/-- How many statements `i` may still need. -/
def rank (s : System ι) (i : ι) : Nat := (s.calls i).elim 0 fun call => call.2.rank

/-- Nobody else asks for the wallets of `i` and `j`. -/
def BothUndisturbed (config : WalletsConfig) (i j : ι) (owner : Owner) (c c' : String)
    (action : Action ι) (s : System ι) : Prop :=
  Undisturbed config i (owner, c) action s ∧ Undisturbed config j (owner, c') action s

instance (i j : ι) (owner : Owner) (c c' : String) (action : Action ι) (s : System ι) :
    Decidable (BothUndisturbed config i j owner c c' action s) :=
  inferInstanceAs (Decidable (_ ∧ _))

/-- A step of `i` brings it closer to its end, and the steps of the others leave it where it is. -/
def ComesToAnEnd (config : WalletsConfig) (Admits : Action ι → System ι → Prop) (s : System ι)
    (i : ι) : Prop :=
  ∀ action s', Admits action s → step config action s = some s' →
    if action.caller = i then s'.rank i < s.rank i else s'.rank i = s.rank i

theorem Inv.onePrimary (inv : s.Inv config) (owner : Owner) : s.OnePrimary owner := by
  rintro ⟨id, wallet, row, rfl⟩
  obtain ⟨first, primary⟩ := inv.primary id wallet row
  exact ⟨first, primary, fun other also => (inv.wallets.primary _).rows other first also primary⟩

theorem Inv.onePerCurrency (inv : s.Inv config) (owner : Owner) : s.OnePerCurrency owner := by
  intro id id' wallet wallet' row row' owned owned' same
  apply (inv.wallets.currency owner wallet.currency).rows id id'
  · simp [row, HasCurrency, owned]
  · simp [row', HasCurrency, owned', same]

theorem Inv.oneWallet (inv : s.Inv config) (single : config.walletsPerOwner = .single)
    (owner : Owner) : s.OneWallet owner := by
  intro id id' wallet wallet' row row' owned owned'
  have primary := (inv.wallets.every id wallet (.inl row)).2 single
  have primary' := (inv.wallets.every id' wallet' (.inl row')).2 single
  apply (inv.wallets.primary owner).rows id id'
  · simp [row, IsPrimary, owned, primary]
  · simp [row', IsPrimary, owned', primary']

omit [DecidableEq ι] in
theorem Unmade.leavesNothing (unmade : s.Unmade i) : s.LeavesNothing i := by
  refine ⟨fun id member => ?_, fun id member => ?_⟩
  · obtain ⟨-, absent | ⟨gone, -⟩⟩ := unmade.1 id member
    · exact absent.1
    · exact gone
  · obtain ⟨-, absent | ⟨gone, -⟩⟩ := unmade.2 id member
    · exact absent.1
    · exact gone

theorem Sole.comesToAnEnd (sole : s.Sole config i asked)
    (multiple : config.walletsPerOwner = .multiple) (here : s.calls i = some (request, pc))
    (creates : request.creates config = some asked) {Admits : Action ι → System ι → Prop}
    (admits : ∀ action, Admits action s → Undisturbed config i asked action s) :
    ComesToAnEnd config Admits s i := by
  intro action s' may stepped
  split_ifs with mine
  · obtain ⟨pc', there, less, -⟩ := sole.move multiple here creates (admits action may) mine stepped
    simpa [rank, here, there] using less
  · have moves := (sole.inv.step stepped).moves
    unfold rank
    rw [moves.calls i (Ne.symm mine)]

/-- A create that is over has returned. -/
theorem Sole.returned (sole : s.Sole config i asked) (here : s.calls i = some (request, pc))
    (creates : request.creates config = some asked) (ended : pc.ended = true) :
    ∃ wallet, pc = .returned wallet ∧ s.Opened asked wallet := by
  obtain ⟨threw, crashed, returned⟩ := sole.succeeds request pc here creates
  have serves := sole.serves i request pc here
  cases pc with
  | returned wallet => exact ⟨wallet, rfl, returned wallet rfl⟩
  | threw error => exact (threw error rfl).elim
  | crashed => exact (crashed rfl).elim
  | done =>
    have other : request.creates config = none := serves
    rw [creates] at other
    cases other
  | _ => cases ended

/-- In every run every owner of wallets has one primary wallet and one wallet for each currency, in
single mode one wallet; and a create that throws has left no row. In multiple mode two creates whose
wallets nobody else asks for do not throw: each comes closer to its end with each step, and when the
others are over and neither can go on, both have returned. -/
theorem one_primary_wallet (config : WalletsConfig) :
    (∀ s : System ι, Reaches config Schedule.Any start s →
      (∀ owner, s.OnePrimary owner ∧ s.OnePerCurrency owner ∧
        (config.walletsPerOwner = .single → s.OneWallet owner)) ∧
      ∀ i owner currency error, s.calls i = some (.create owner currency, .threw error) →
        s.LeavesNothing i) ∧
    (config.walletsPerOwner = .multiple → ∀ i j owner c c', c ∈ config.allowedCurrencies →
      c' ∈ config.allowedCurrencies →
      ∀ s : System ι, Reaches config (BothUndisturbed config i j owner c c') start s →
      ∀ request pc request' pc',
        s.calls i = some (request, pc) → request.creates config = some (owner, c) →
        s.calls j = some (request', pc') → request'.creates config = some (owner, c') →
        (∀ error, pc ≠ .threw error ∧ pc' ≠ .threw error) ∧
        ComesToAnEnd config (BothUndisturbed config i j owner c c') s i ∧
        ComesToAnEnd config (BothUndisturbed config i j owner c c') s j ∧
        (s.OthersOver i j → s.HasIds → AtRest config s i j →
          ∃ wallet wallet', pc = .returned wallet ∧ pc' = .returned wallet' ∧
            s.Opened (owner, c) wallet ∧ s.Opened (owner, c') wallet')) := by
  constructor
  · intro s run
    have inv : s.Inv config := Inv.start.reaches run
    refine ⟨fun owner => ⟨inv.onePrimary owner, inv.onePerCurrency owner,
      fun single => inv.oneWallet single owner⟩, fun i owner currency error here => ?_⟩
    exact (inv.calls i _ _ here).2.leavesNothing
  · intro multiple i j owner c c' allowed allowed' s run request pc request' pc' here creates there
      creates'
    have sole : s.Sole config i (owner, c) :=
      .reaches multiple allowed (fun _ _ may => may.1) run
    have sole' : s.Sole config j (owner, c') :=
      .reaches multiple allowed' (fun _ _ may => may.2) run
    refine ⟨fun error => ⟨(sole.succeeds request pc here creates).1 error,
      (sole'.succeeds request' pc' there creates').1 error⟩,
      sole.comesToAnEnd multiple here creates fun _ may => may.1,
      sole'.comesToAnEnd multiple there creates' fun _ may => may.2,
      fun others ids rest => ?_⟩
    have ended := ended_of_atRest sole.inv sole.serves here creates there creates' others ids rest
    have ended' := ended_of_atRest sole.inv sole.serves there creates' here creates others.symm ids
      rest.symm
    obtain ⟨wallet, returned, opened⟩ := sole.returned here creates ended
    obtain ⟨wallet', returned', opened'⟩ := sole'.returned there creates' ended'
    exact ⟨wallet, wallet', returned, returned', opened, opened'⟩

/-! ### Two wallets at once -/

def twoCurrencies : WalletsConfig := ⟨.multiple, "NGN", ["NGN", "USD"]⟩

/-- Both have found no primary wallet, and the second has to try again. -/
def race (i j : ι) : List (Action ι) :=
  [.call i (.create (.user 7) none), .call j (.create (.user 7) (some "USD")), .advance i,
    .advance j, .insert i 10, .insert i 11, .insert i 12, .insert j 20, .insert j 21, .insert j 22,
    .insert i 1, .advance i, .insert j 2, .insert j 23, .insert j 24, .insert j 25, .insert j 2,
    .advance j]

theorem both_opened : ∃ s : System (Fin 2),
    Reaches twoCurrencies Schedule.Any start s ∧ s.OnePrimary (.user 7) ∧ s.OnePerCurrency (.user 7) ∧
      ∃ wallet wallet', s.Opened (.user 7, "NGN") wallet ∧ s.Opened (.user 7, "USD") wallet' := by
  have ran : (Schedule.run (step twoCurrencies)
      (BothUndisturbed twoCurrencies 0 1 (.user 7) "NGN" "USD") (race 0 1)
      (start : System (Fin 2))).map (fun s => (s.calls 0, s.calls 1, decide (9 ∉ s.walletIds ∧ 9 ∉ s.accountIds))) =
        some (some (.create (.user 7) none,
            .returned (newWallet 1 ⟨.user 7, "NGN", true, false⟩ 10 11 12)),
          some (.create (.user 7) (some "USD"),
            .returned (newWallet 2 ⟨.user 7, "USD", false, true⟩ 23 24 25)), true) := by
    decide +kernel
  obtain ⟨s, ran, facts⟩ := Option.map_eq_some_iff.mp ran
  obtain ⟨here, facts⟩ := Prod.ext_iff.mp facts
  obtain ⟨there, left⟩ := Prod.ext_iff.mp facts
  obtain ⟨newWalletId, newAccountId⟩ := of_decide_eq_true left
  dsimp only at here there
  have run := Schedule.reaches_of_run ran
  obtain ⟨always, two⟩ := one_primary_wallet (ι := Fin 2) twoCurrencies
  obtain ⟨owners, -⟩ := always s (run.mono fun _ _ _ => trivial)
  have others : s.OthersOver 0 1 := by
    intro k first second
    rcases (by decide : ∀ k : Fin 2, k = 0 ∨ k = 1) k with rfl | rfl
    · exact (first rfl).elim
    · exact (second rfl).elim
  have rest : AtRest twoCurrencies s 0 1 := by
    rintro k (rfl | rfl)
    · exact ⟨by simp [step, here, System.advance], by simp [step, here, System.insertNext]⟩
    · exact ⟨by simp [step, there, System.advance], by simp [step, there, System.insertNext]⟩
  obtain ⟨-, -, -, ends⟩ := two rfl 0 1 (.user 7) "NGN" "USD" (by decide) (by decide) s run _ _ _ _
    here rfl there rfl
  obtain ⟨wallet, wallet', -, -, opened, opened'⟩ :=
    ends others ⟨⟨9, newWalletId⟩, 9, newAccountId⟩ rest
  exact ⟨s, run.mono fun _ _ _ => trivial, (owners _).1, (owners _).2.1, wallet, wallet', opened, opened'⟩

end System

end Finstack.Wallets
