import Finstack.Soundness.Auth.Revocation

/-! # Sessions

The promises of the refresh token service about every run.
-/

namespace Finstack.RefreshTokens

open Foundation

variable {κ φ υ ι : Type} [DecidableEq κ] [DecidableEq φ] [DecidableEq υ] [DecidableEq ι]
  {s s' : Sessions κ φ υ ι} {i : ι} {k : κ} {a : RefreshToken κ φ υ} {call : Call κ φ υ}
  {scope : Scope φ υ} {result : Result κ φ υ} {ttl now : Nat}

/-- What a call that presents a rotated token comes to, if nobody else rotates its family. -/
theorem reused_of_reaches (inv : Inv s) (there : s.tokens.rows k = some a)
    (rotated : a.replacedById.isSome) (new : s.calls i = none)
    (run : Sessions.Reaches ttl (Alone i a.familyId) s s')
    (returned : s'.calls i = some ⟨.rotate k, .returned result⟩) :
    result = .invalid ∧ s'.tokens.rows k = none ∨
      result = .reused a.userId a.familyId ∧ ∀ l, ¬ Alive s' a.familyId l := by
  obtain ⟨n, points⟩ := Option.isSome_iff_exists.mp rotated
  obtain ⟨r, member, rfl, -⟩ := inv.chains.replaced k a n there points
  have revoked := (inv.chains.token r member a there).1
  have holds : Inv s' ∧ Reused r.token a i s' := by
    apply run.invariant fun s => Inv s ∧ Reused r.token a i s
    · rintro action s s' ⟨inv, reused⟩ alone stepped
      exact ⟨inv.step stepped, reused.step inv ⟨revoked, rotated⟩ alone stepped⟩
    · refine ⟨inv, (Dead.of_row inv.calls there (.inl revoked)).known, fun b shown => ?_, ?_⟩
      · rcases shows_cases inv.calls there shown with same | ⟨unrevoked, -⟩
        · exact same
        · rw [unrevoked] at revoked
          cases revoked
      · intro call here
        rw [new] at here
        cases here
  rcases holds.2.stage _ returned rfl with at_ | at_ | ⟨at_ | at_, none⟩ | ⟨revoking, -⟩
  · cases at_
  · cases at_
  · cases at_
  · cases at_
    exact .inl ⟨rfl, none⟩
  · obtain ⟨call, here, stage⟩ := revoking.stage
    rw [returned] at here
    cases here
    exact .inr stage

/-! ## Main results -/

/-- In every run families are chains, and a call returns a rotation that is on record. A token that
is revoked or expired gives nothing to a call that is not exchanging it yet. If it was rotated, a
call that presents it does not find it any more, or revokes the whole family, as long as no other
rotation of the family is in progress. -/
theorem refresh_tokens_rotate_once (run : Sessions.Reaches ttl Schedule.Any (.start now) s) :
    Chains s ∧ Logged s ∧
    (∀ s' i k a, Sessions.Reaches ttl Schedule.Any s s' → s.tokens.rows k = some a →
      a.revokedAt.isSome ∨ a.expiresAt ≤ s.now → NotExchanging s i k →
      ∀ next expiresAt userId familyId,
        s'.calls i ≠ some ⟨.rotate k, .returned (.rotated next expiresAt userId familyId)⟩) ∧
    ∀ s' i k a result, s.tokens.rows k = some a → a.replacedById.isSome → s.calls i = none →
      Sessions.Reaches ttl (Alone i a.familyId) s s' →
      s'.calls i = some ⟨.rotate k, .returned result⟩ →
        result = .invalid ∧ s'.tokens.rows k = none ∨
          result = .reused a.userId a.familyId ∧ ∀ l, ¬ Alive s' a.familyId l := by
  have inv := inv_of_reaches run
  refine ⟨inv.chains, inv.logged, ?_, ?_⟩
  · intro s' i k a later there ended new next expiresAt userId familyId
    exact not_exchanged_of_ended inv.calls later there ended new
  · intro s' i k a result there rotated new later returned
    exact reused_of_reaches inv there rotated new later returned

/-- A session with its first token, and the call `0` that has issued it. -/
def signIn : List (Sessions.Action (Fin 2) (Fin 1) (Fin 1) (Fin 3)) :=
  [.call 0 (.issue 0), .insert 0 0 0, .advance 0]

/-- The call `1` exchanges the token for another one. -/
def refresh : List (Sessions.Action (Fin 2) (Fin 1) (Fin 1) (Fin 3)) :=
  [.call 1 (.rotate 0), .advance 1, .insert 1 1 0, .advance 1, .advance 1]

theorem refresh_tokens_rotate_once_after_refresh :
    ∃ s : Sessions (Fin 2) (Fin 1) (Fin 1) (Fin 3),
      Sessions.Reaches 10 Schedule.Any (.start 0) s ∧ s.rotations = [⟨1, 0, 1, 0, 0⟩] ∧ Chains s := by
  have ran : (Schedule.run (Sessions.step 10) Schedule.Any (signIn ++ refresh)
      (.start 0 : Sessions (Fin 2) (Fin 1) (Fin 1) (Fin 3))).map (·.rotations) =
        some [⟨1, 0, 1, 0, 0⟩] := by
    decide +kernel
  obtain ⟨s, ran, rotations⟩ := Option.map_eq_some_iff.mp ran
  have run := Schedule.reaches_of_run ran
  exact ⟨s, run, rotations, (refresh_tokens_rotate_once run).1⟩

/-- A revocation ends the families that it covers for good, if no row is rotated after its `UPDATE`
has begun and before it has locked the row. -/
theorem session_ends_of_upToDate (run : Sessions.Reaches ttl UpToDate (.start now) s)
    (here : s.calls i = some call) (at_ : call.pc = .update scope result)
    (there : s.tokens.rows k = some a) (covered : scope.covers a)
    (run' : Sessions.Reaches ttl UpToDate s s')
    (returned : s'.calls i = some ⟨call.request, .returned result⟩) :
    (∀ l, ¬ Alive s' a.familyId l) ∧
    ∀ s'' j l b, Sessions.Reaches ttl Schedule.Any s' s'' → s'.tokens.rows l = some b →
      b.familyId = a.familyId → NotExchanging s' j l → ∀ next expiresAt userId familyId,
        s''.calls j ≠ some ⟨.rotate l, .returned (.rotated next expiresAt userId familyId)⟩ := by
  have inv := inv_of_reaches run
  obtain ⟨inv', revoking⟩ :=
    (Revoking.of_update inv.calls inv.chains here at_ there covered).of_reaches inv run'
  obtain ⟨call', here', stage⟩ := revoking.stage
  rw [returned] at here'
  cases here'
  refine ⟨stage.2, fun s'' j l b later row family new next expiresAt userId familyId => ?_⟩
  apply not_exchanged_of_ended inv'.calls later row (.inl _) new
  by_contra alive
  exact stage.2 l ⟨b, row, family, by simpa using alive⟩

/-- A session that is signed out. -/
theorem session_ends_after_sign_out : ∃ s : Sessions (Fin 2) (Fin 1) (Fin 1) (Fin 3),
    Sessions.Reaches 10 UpToDate (.start 0) s ∧ s.calls 1 = some ⟨.revokeFamily 0, .returned .done⟩ ∧
      ∀ l, ¬ Alive s 0 l := by
  have ran : ((Schedule.run (Sessions.step 10) UpToDate (signIn ++ [.call 1 (.revokeFamily 0)])
      (.start 0 : Sessions (Fin 2) (Fin 1) (Fin 1) (Fin 3))).bind fun s =>
        (Schedule.run (Sessions.step 10) UpToDate [.advance 1, .lock 1 0, .advance 1, .advance 1]
          s).map fun s' => (s.calls 1, s.tokens.rows 0, s'.calls 1)) =
      some (some ⟨.revokeFamily 0, .update (.family 0) .done⟩, some ⟨0, 0, 10, none, none⟩,
        some ⟨.revokeFamily 0, .returned .done⟩) := by
    decide +kernel
  obtain ⟨s, s', run, run', seen⟩ := Schedule.reaches_of_runs ran
  simp only [Prod.mk.injEq] at seen
  obtain ⟨here, there, returned⟩ := seen
  exact ⟨s', run.trans run', returned,
    (session_ends_of_upToDate run here rfl there rfl run' returned).1⟩

/-- A call that is over. -/
def Pc.isReturned : Pc κ φ υ → Bool
  | .returned _ => true
  | _ => false

/-- The `UPDATE` of a sign-out begins while a refresh has inserted its successor and has not
committed. It waits for the token, finds it rotated, and leaves the successor alone. -/
theorem session_survives_sign_out : ¬ ∀ (s s' : Sessions (Fin 2) (Fin 1) (Fin 1) (Fin 3)) i call
    scope result k a, Sessions.Reaches 10 Schedule.Any (.start 0) s → s.calls i = some call →
      call.pc = .update scope result → s.tokens.rows k = some a → scope.covers a →
      Sessions.Reaches 10 Schedule.Any s s' →
      s'.calls i = some ⟨call.request, .returned result⟩ →
      (∀ j, ∀ call ∈ s'.calls j, call.pc.isReturned) →
      ∀ r ∈ s'.rotations, ¬ Alive s' a.familyId r.next := by
  intro ends
  have ran : ((Schedule.run (Sessions.step 10) Schedule.Any
      (signIn ++ [.call 1 (.rotate 0), .advance 1, .insert 1 1 0, .call 2 (.revokeFamily 0)])
      (.start 0 : Sessions (Fin 2) (Fin 1) (Fin 1) (Fin 3))).bind fun s =>
        (Schedule.run (Sessions.step 10) Schedule.Any [.advance 2, .advance 1, .advance 1,
          .lock 2 0, .advance 2, .advance 2] s).map fun s' => decide (
            (s.calls 2 = some ⟨.revokeFamily 0, .update (.family 0) .done⟩ ∧
              s.tokens.rows 0 = some ⟨0, 0, 10, none, none⟩) ∧
            (s'.calls 2 = some ⟨.revokeFamily 0, .returned .done⟩ ∧
              ∀ j, ∀ call ∈ s'.calls j, call.pc.isReturned) ∧
            s'.rotations = [⟨1, 0, 1, 0, 0⟩] ∧ s'.tokens.rows 1 = some ⟨0, 0, 10, none, none⟩)) =
      some true := by
    decide +kernel
  obtain ⟨s, s', run, run', seen⟩ := Schedule.reaches_of_runs ran
  obtain ⟨⟨here, there⟩, ⟨returned, ended⟩, rotations, alive⟩ := of_decide_eq_true seen
  refine ends s s' 2 _ _ _ 0 _ run here rfl there rfl run' returned ended ⟨1, 0, 1, 0, 0⟩ ?_
    ⟨_, alive, rfl, rfl⟩
  rw [rotations]
  exact List.mem_singleton.mpr rfl

end Finstack.RefreshTokens
