import Finstack.Soundness.Auth.Statements

/-! # Which tokens are exchanged

A token whose every version is revoked or expired is never exchanged by a call that begins later:
such a call finds it so when it has locked it.
-/

namespace Finstack.RefreshTokens

open Foundation

variable {κ φ υ ι : Type} [DecidableEq κ] [DecidableEq φ] [DecidableEq υ] [DecidableEq ι]
  {s s' : Sessions κ φ υ ι} {i j : ι} {token k l : κ} {call : Call κ φ υ} {pc pc' : Pc κ φ υ}
  {a b : RefreshToken κ φ υ} {ttl : Nat} {action : Sessions.Action κ φ υ ι}

/-! ## What a step can make of a row -/

/-- Tokens and families are only added, and time does not go back. -/
theorem grown_of_step (stepped : Sessions.step ttl action s = some s') :
    s.ids ⊆ s'.ids ∧ s.families ⊆ s'.families ∧ s.now ≤ s'.now := by
  have same : ∀ {t : Sessions κ φ υ ι}, t.ids = s.ids → t.families = s.families → t.now = s.now →
      s.ids ⊆ t.ids ∧ s.families ⊆ t.families ∧ s.now ≤ t.now := by
    intro t ids families now
    rw [ids, families, now]
    exact ⟨List.Subset.refl _, List.Subset.refl _, Nat.le_refl _⟩
  cases action with
  | tick now =>
    simp only [Sessions.step] at stepped
    split_ifs at stepped with later
    cases stepped
    exact ⟨List.Subset.refl _, List.Subset.refl _, later⟩
  | call i request =>
    simp only [Sessions.step] at stepped
    split_ifs at stepped
    cases stepped
    exact same rfl rfl rfl
  | insert i token familyId =>
    obtain ⟨call, here, inserts⟩ := Option.bind_eq_some_iff.mp stepped
    unfold Sessions.insertNext at inserts
    split at inserts
    next =>
      split_ifs at inserts
      cases inserts
      exact ⟨List.subset_cons_self _ _, List.subset_cons_self _ _, Nat.le_refl _⟩
    next =>
      split_ifs at inserts
      cases inserts
      exact ⟨List.subset_cons_self _ _, List.Subset.refl _, Nat.le_refl _⟩
    next => cases inserts
  | lock i token =>
    obtain ⟨call, here, locks⟩ := Option.bind_eq_some_iff.mp stepped
    unfold Sessions.lockNext at locks
    split at locks
    next =>
      split_ifs at locks
      split at locks
      next => cases locks; exact same rfl rfl rfl
      next => split_ifs at locks <;> cases locks <;> exact same rfl rfl rfl
    next =>
      split_ifs at locks
      split at locks
      next => cases locks; exact same rfl rfl rfl
      next => split_ifs at locks <;> cases locks <;> exact same rfl rfl rfl
    next => cases locks
  | advance i =>
    obtain ⟨call, here, advances⟩ := Option.bind_eq_some_iff.mp stepped
    unfold Sessions.advance at advances
    split at advances
    next => split at advances <;> (try split_ifs at advances) <;> cases advances <;> exact same rfl rfl rfl
    next =>
      split_ifs at advances
      split at advances <;> cases advances <;> exact same rfl rfl rfl
    next => split at advances <;> cases advances <;> exact same rfl rfl rfl
    next => cases advances; exact same rfl rfl rfl
    next => split_ifs at advances; cases advances; exact same rfl rfl rfl
    next => cases advances; exact same rfl rfl rfl
    next => split_ifs at advances; cases advances; exact same rfl rfl rfl
    next => cases advances; exact same rfl rfl rfl
    next => cases advances
  | crash i =>
    obtain ⟨call, here, rfl⟩ := Option.map_eq_some_iff.mp stepped
    exact same rfl rfl rfl

/-- A version that a step makes of a row is of a new token, or revoked while one before was not. -/
theorem shows_of_step (inv : CallsInv s) (stepped : Sessions.step ttl action s = some s')
    (shown : s'.tokens.Shows k b) : s.tokens.Shows k b ∨ k ∉ s.ids ∨
      b.revokedAt.isSome ∧ ∃ a, s.tokens.Shows k a ∧ a.revokedAt = none := by
  cases action with
  | tick now =>
    simp only [Sessions.step] at stepped
    split_ifs at stepped
    cases stepped
    exact .inl shown
  | call i request =>
    simp only [Sessions.step] at stepped
    split_ifs at stepped
    cases stepped
    exact .inl shown
  | insert i token familyId =>
    obtain ⟨call, here, inserts⟩ := Option.bind_eq_some_iff.mp stepped
    unfold Sessions.insertNext at inserts
    split at inserts
    next =>
      split_ifs at inserts with used
      have new := (not_or.mp used).1
      cases inserts
      rcases RowStore.shows_write (.inl (inv.within token new).2) shown with old | ⟨rfl, -⟩
      · exact .inl old
      · exact .inr (.inl new)
    next =>
      split_ifs at inserts with new
      cases inserts
      rcases RowStore.shows_write (.inl (inv.within token new).2) shown with old | ⟨rfl, -⟩
      · exact .inl old
      · exact .inr (.inl new)
    next => cases inserts
  | lock i token =>
    obtain ⟨call, here, locks⟩ := Option.bind_eq_some_iff.mp stepped
    unfold Sessions.lockNext at locks
    split at locks
    next =>
      split_ifs at locks with may
      split at locks
      next => cases locks; exact .inl shown
      next row seen =>
        split_ifs at locks with revokes <;> cases locks
        · rcases RowStore.shows_write may.2 shown with old | ⟨rfl, written⟩
          · exact .inl old
          · cases written
            exact .inr (.inr ⟨rfl, row, RowStore.shows_of_view seen,
              by simpa using (Bool.and_eq_true_iff.mp revokes).2⟩)
        · exact .inl shown
    next =>
      split_ifs at locks with may
      split at locks
      next => cases locks; exact .inl shown
      next row seen =>
        split_ifs at locks <;> cases locks
        · rcases RowStore.shows_write may.2 shown with old | ⟨-, written⟩
          · exact .inl old
          · cases written
        · exact .inl shown
    next => cases locks
  | advance i =>
    obtain ⟨call, here, advances⟩ := Option.bind_eq_some_iff.mp stepped
    unfold Sessions.advance at advances
    split at advances
    next =>
      split at advances
      next => cases advances; exact .inl shown
      next =>
        split_ifs at advances with free
        cases advances
        exact .inl (RowStore.shows_lock free shown)
    next token current next expiresAt rotate at_ =>
      split_ifs at advances with free
      split at advances <;> cases advances
      · exact .inl shown
      next row seen =>
        have holds := inv.calls i call here
        rw [at_, rotate] at holds
        obtain ⟨first, successor, request, locked, view, -⟩ := holds
        cases request
        rcases RowStore.shows_write free shown with old | ⟨rfl, written⟩
        · exact .inl old
        · cases written
          exact .inr (.inr ⟨rfl, current, RowStore.shows_of_view view, locked.unrevoked⟩)
    next => split at advances <;> cases advances <;> exact .inl shown
    next => cases advances; exact .inl shown
    next => split_ifs at advances; cases advances; exact .inl shown
    next => cases advances; exact .inl shown
    next => split_ifs at advances; cases advances; exact .inl shown
    next => cases advances; exact .inl (RowStore.shows_commit shown)
    next => cases advances
  | crash i =>
    obtain ⟨call, here, rfl⟩ := Option.map_eq_some_iff.mp stepped
    exact .inl (RowStore.shows_rollback shown)

omit [DecidableEq κ] [DecidableEq φ] [DecidableEq υ] in
/-- Every version of a committed row is that row, or a revoked one of the same expiry. -/
theorem shows_cases (inv : CallsInv s) (there : s.tokens.rows k = some a)
    (shown : s.tokens.Shows k b) : b = a ∨ a.revokedAt = none ∧ b.revokedAt.isSome := by
  rcases shown with same | ⟨i, mine, seen⟩
  · exact .inl (Option.some.inj (same.symm.trans there))
  · cases here : s.calls i with
    | none => exact (inv.idle i here k mine).elim
    | some call =>
      have holds := inv.calls i call here
      have evolves : Evolves (s.tokens.rows k) (s.tokens.view i k) →
          b = a ∨ a.revokedAt = none ∧ b.revokedAt.isSome := by
        intro evolves
        obtain ⟨c, before, -, -, -, rfl | ⟨unrevoked, revoked, -⟩⟩ := evolves b seen
        · exact .inl (Option.some.inj (before.symm.trans there))
        · rw [there] at before
          cases before
          exact .inr ⟨unrevoked, revoked⟩
      cases at_ : call.pc <;> rw [at_] at holds
      case insertNext current =>
        obtain ⟨token, -, locked, view, only⟩ := holds
        obtain rfl := only k mine
        left
        rw [locked.row] at there
        rw [seen] at view
        rw [Option.some.inj view, Option.some.inj there]
      case replaceCurrent current next expiresAt =>
        obtain ⟨token, row, -, locked, view, inserted, -, only⟩ := holds
        rcases only k mine with rfl | rfl
        · left
          rw [locked.row] at there
          rw [seen] at view
          rw [Option.some.inj view, Option.some.inj there]
        · rw [inserted.vacant] at there
          cases there
      case update scope result => exact evolves (holds.2 k mine)
      case updating scope revokedAt remaining result => exact evolves (holds.2 k mine)
      case deleting before remaining affected => exact evolves (holds k mine)
      case commit result =>
        cases result with
        | issued token expiresAt =>
          obtain ⟨row, userId, -, inserted, -, -, -, only⟩ := holds
          obtain rfl := only k mine
          rw [inserted.vacant] at there
          cases there
        | rotated next expiresAt userId familyId =>
          obtain ⟨token, current, replaced, row, -, locked, view, replaces, inserted, -, -, -,
            only⟩ := holds
          rcases only k mine with rfl | rfl
          · right
            rw [locked.row] at there
            rw [seen] at view
            rw [← Option.some.inj there, Option.some.inj view]
            exact ⟨locked.unrevoked, replaces.revokedAt⟩
          · rw [inserted.vacant] at there
            cases there
        | invalid => exact evolves (holds k mine)
        | reused userId familyId => exact evolves (holds k mine)
        | done => exact evolves (holds k mine)
        | deleted affected => exact evolves (holds k mine)
      all_goals exact (holds k mine).elim

/-! ## Tokens that are not exchanged any more -/

/-- Every version of the token is revoked or expired. -/
structure Dead (s : Sessions κ φ υ ι) (k : κ) : Prop where
  known : k ∈ s.ids
  ended : ∀ b, s.tokens.Shows k b → b.revokedAt.isSome ∨ b.expiresAt ≤ s.now

omit [DecidableEq φ] [DecidableEq υ] in
theorem Dead.of_row (inv : CallsInv s) (there : s.tokens.rows k = some a)
    (ended : a.revokedAt.isSome ∨ a.expiresAt ≤ s.now) : Dead s k where
  known := by
    by_contra outside
    rw [(inv.within k outside).1] at there
    cases there
  ended b shown := by
    rcases shows_cases inv there shown with rfl | ⟨-, revoked⟩
    · exact ended
    · exact .inl revoked

theorem Dead.step (inv : CallsInv s) (dead : Dead s k)
    (stepped : Sessions.step ttl action s = some s') : Dead s' k where
  known := (grown_of_step stepped).1 dead.known
  ended b shown := by
    rcases shows_of_step inv stepped shown with old | new | ⟨revoked, -⟩
    · have later := (grown_of_step stepped).2.2
      exact (dead.ended b old).imp_right fun expired => Nat.le_trans expired later
    · exact (new dead.known).elim
    · exact .inl revoked

/-- The statements of `rotate` after its checks, when it exchanges the token. -/
def Pc.Exchanges : Pc κ φ υ → Prop
  | .insertNext _ | .replaceCurrent _ _ _ | .commit (.rotated _ _ _ _)
  | .returned (.rotated _ _ _ _) => True
  | _ => False

omit [DecidableEq κ] [DecidableEq φ] [DecidableEq υ] in
theorem checked_exchanges {now : Nat} (exchanges : (checked now a).Exchanges) :
    a.revokedAt = none ∧ now < a.expiresAt := by
  unfold checked at exchanges
  split_ifs at exchanges with ended rotated expired
  · exact exchanges.elim
  · exact exchanges.elim
  · exact exchanges.elim
  · exact ⟨by simpa using rotated, by omega⟩

/-- A call comes to exchange its token by the check of a row that is unrevoked and not expired. -/
theorem Next.exchanges {request : Request κ φ υ} (next : Next action s s' i request pc pc')
    (holds : pc.Holds s i request) (exchanges : pc'.Exchanges) : pc.Exchanges ∨
      ∃ token a, request = .rotate token ∧ s.tokens.rows token = some a ∧
        a.revokedAt = none ∧ s.now < a.expiresAt := by
  cases next with
  | checked rotate there _ => exact .inr ⟨_, _, rotate, there, checked_exchanges exchanges⟩
  | created => exact .inl trivial
  | replaced => exact .inl trivial
  | @committed result => cases result <;> first | exact exchanges.elim | exact .inl trivial
  | @updated scope revokedAt result =>
    cases result <;> first | exact exchanges.elim | exact holds.1.elim
  | inserted | unknown | ignored | found | selected | locked | delete | deleting | deleted
  | crashed => exact exchanges.elim

/-- The call is not exchanging this token. -/
def NotExchanging (s : Sessions κ φ υ ι) (i : ι) (k : κ) : Prop :=
  ∀ call, s.calls i = some call → call.request = .rotate k → ¬ call.pc.Exchanges

/-- None of the calls that were not exchanging this token do so now. -/
def Unexchanged (s₀ s : Sessions κ φ υ ι) (k : κ) : Prop :=
  ∀ i, NotExchanging s₀ i k → NotExchanging s i k

theorem Unexchanged.step {s₀ : Sessions κ φ υ ι} (inv : CallsInv s) (dead : Dead s k)
    (unexchanged : Unexchanged s₀ s k) (moved : Moved action s s') : Unexchanged s₀ s' k := by
  intro i new call here rotate exchanges
  cases moved with
  | stayed calls _ =>
    rw [calls] at here
    exact unexchanged i new call here rotate exchanges
  | @began j request _ calls _ =>
    rw [calls] at here
    rcases eq_or_ne i j with rfl | other
    · obtain rfl : _ = call := by simpa using here
      cases request <;> exact exchanges
    · rw [Function.update_of_ne other] at here
      exact unexchanged i new call here rotate exchanges
  | @moved j old pc before calls _ next =>
    rw [calls] at here
    rcases eq_or_ne i j with rfl | other
    · obtain rfl : _ = call := by simpa using here
      rcases next.exchanges (inv.calls i old before) exchanges with already |
        ⟨token, a, request, there, unrevoked, alive⟩
      · exact unexchanged i new old before rotate already
      · obtain rfl : token = k := by
          have same : Request.rotate token = .rotate k := request.symm.trans rotate
          cases same
          rfl
        rcases dead.ended a (.inl there) with revoked | expired
        · rw [unrevoked] at revoked
          cases revoked
        · omega
    · rw [Function.update_of_ne other] at here
      exact unexchanged i new call here rotate exchanges

/-- A token that is revoked or expired is only exchanged by a call that already does so. -/
theorem not_exchanged_of_ended {s₀ : Sessions κ φ υ ι} {Admits} (inv : CallsInv s₀)
    (run : Sessions.Reaches ttl Admits s₀ s) (there : s₀.tokens.rows k = some a)
    (ended : a.revokedAt.isSome ∨ a.expiresAt ≤ s₀.now) (new : NotExchanging s₀ i k) {next : κ}
    {expiresAt : Nat} {userId : υ} {familyId : φ} :
    s.calls i ≠ some ⟨.rotate k, .returned (.rotated next expiresAt userId familyId)⟩ := by
  have holds : CallsInv s ∧ Dead s k ∧ Unexchanged s₀ s k := by
    apply run.invariant fun s => CallsInv s ∧ Dead s k ∧ Unexchanged s₀ s k
    · rintro action s s' ⟨inv, dead, unexchanged⟩ - stepped
      exact ⟨(inv.step stepped).1, dead.step inv stepped,
        unexchanged.step inv dead (moved_of_step inv stepped)⟩
    · exact ⟨inv, .of_row inv there ended, fun _ new => new⟩
  exact fun here => holds.2.2 i new _ here rfl trivial

/-! ## What is returned -/

/-- Every rotation that a call has returned is on record. -/
def Logged (s : Sessions κ φ υ ι) : Prop :=
  ∀ i request result, s.calls i = some ⟨request, .returned result⟩ →
    Sessions.rotated i request result ⊆ s.rotations

omit [DecidableEq φ] [DecidableEq υ] in
theorem Change.rotations_subset (change : Change s s') : s.rotations ⊆ s'.rotations := by
  cases change with
  | evolved _ rotations => rw [rotations]; exact List.Subset.refl _
  | rotated _ _ _ _ _ _ _ _ _ rotations => rw [rotations]; exact List.subset_cons_self _ _
  | issued _ _ _ _ _ _ _ rotations => rw [rotations]; exact List.Subset.refl _

theorem Logged.step (logged : Logged s) (change : Change s s') (moved : Moved action s s') :
    Logged s' := by
  intro i request result here
  have grows := change.rotations_subset
  cases moved with
  | stayed calls _ =>
    rw [calls] at here
    exact List.Subset.trans (logged i request result here) grows
  | @began j request' _ calls _ =>
    rw [calls] at here
    rcases eq_or_ne i j with rfl | other
    · have same : (⟨request', request'.begin⟩ : Call κ φ υ) = ⟨request, .returned result⟩ := by
        simpa using here
      cases request' <;> cases same
    · rw [Function.update_of_ne other] at here
      exact List.Subset.trans (logged i request result here) grows
  | @moved j old pc before calls _ next =>
    rw [calls] at here
    rcases eq_or_ne i j with rfl | other
    · have same : ({ old with pc } : Call κ φ υ) = ⟨request, .returned result⟩ := by
        simpa using here
      obtain ⟨request', pc'⟩ := old
      cases same
      generalize at_ : Pc.returned result = pc at next
      cases next with
      | committed _ logged =>
        cases at_
        exact logged
      | ignored =>
        cases at_
        cases request' <;> simp [Sessions.rotated]
      | checked =>
        unfold checked at at_
        split_ifs at at_
      | inserted | unknown | created | replaced | found | selected | locked | updated | delete
      | deleting | deleted | crashed => cases at_
    · rw [Function.update_of_ne other] at here
      exact List.Subset.trans (logged i request result here) grows

end Finstack.RefreshTokens
