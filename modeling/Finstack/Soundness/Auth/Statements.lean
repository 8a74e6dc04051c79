import Finstack.Soundness.Auth.Chains

/-! # From statement to statement

Where a step takes a call, and what it finds on the way.
-/

namespace Finstack.RefreshTokens

open Foundation

variable {κ φ υ ι : Type} [DecidableEq κ] [DecidableEq φ] [DecidableEq υ] [DecidableEq ι]
  {s s' : Sessions κ φ υ ι} {i j : ι} {token k l : κ} {call : Call κ φ υ} {pc : Pc κ φ υ}
  {ttl : Nat} {action : Sessions.Action κ φ υ ι}

/-- One row of an `UPDATE` that revokes has been locked and checked. -/
structure RowDone (scope : Scope φ υ) (s s' : Sessions κ φ υ ι) (i : ι) (l : κ) : Prop where
  rows : s'.tokens.rows = s.tokens.rows
  rotations : s'.rotations = s.rotations
  revoked : ∀ a, s.tokens.rows l = some a → scope.covers a → a.revokedAt = none →
    s'.tokens.holder l = some i ∧
      ∀ b, s'.tokens.view i l = some b → scope.covers b → b.revokedAt.isSome
  others : ∀ k, k ≠ l → s'.tokens.holder k = s.tokens.holder k ∧
    s'.tokens.view i k = s.tokens.view i k

/-- The next statement of a call. -/
inductive Next (action : Sessions.Action κ φ υ ι) (s s' : Sessions κ φ υ ι) (i : ι)
    (request : Request κ φ υ) : Pc κ φ υ → Pc κ φ υ → Prop
  | inserted {token : κ} {expiresAt : Nat}
      (fresh : ∀ a, s'.tokens.view i token = some a → a.familyId ∉ s.families) :
      Next action s s' i request .insert (.commit (.issued token expiresAt))
  | unknown {token : κ} (rotate : request = .rotate token) (none : s.tokens.rows token = none) :
      Next action s s' i request .lockCurrent (.commit .invalid)
  | checked {token : κ} {current : RefreshToken κ φ υ} (rotate : request = .rotate token)
      (there : s.tokens.rows token = some current) (rows : s'.tokens.rows = s.tokens.rows) :
      Next action s s' i request .lockCurrent (checked s.now current)
  | created {current : RefreshToken κ φ υ} {token : κ} {expiresAt : Nat} :
      Next action s s' i request (.insertNext current) (.replaceCurrent current token expiresAt)
  | replaced {current : RefreshToken κ φ υ} {next : κ} {expiresAt : Nat} :
      Next action s s' i request (.replaceCurrent current next expiresAt)
        (.commit (.rotated next expiresAt current.userId current.familyId))
  | ignored : Next action s s' i request .findRevoked (.returned .done)
  | found {familyId : φ} :
      Next action s s' i request .findRevoked (.update (.family familyId) .done)
  | selected {scope : Scope φ υ} {result : Result κ φ υ} (tokens : s'.tokens = s.tokens)
      (rotations : s'.rotations = s.rotations) :
      Next action s s' i request (.update scope result)
        (.updating scope s.now (s.select i scope.revokes) result)
  | locked {scope : Scope φ υ} {revokedAt : Nat} {remaining : List κ} {result : Result κ φ υ} {l : κ}
      (here : action = .lock i l) (member : l ∈ remaining) (done : RowDone scope s s' i l) :
      Next action s s' i request (.updating scope revokedAt remaining result)
        (.updating scope revokedAt (remaining.erase l) result)
  | updated {scope : Scope φ υ} {revokedAt : Nat} {result : Result κ φ υ}
      (tokens : s'.tokens = s.tokens) :
      Next action s s' i request (.updating scope revokedAt [] result) (.commit result)
  | delete {before : Nat} {remaining : List κ} :
      Next action s s' i request (.delete before) (.deleting before remaining 0)
  | deleting {before affected affected' : Nat} {remaining remaining' : List κ} :
      Next action s s' i request (.deleting before remaining affected)
        (.deleting before remaining' affected')
  | deleted {before affected : Nat} {remaining : List κ} :
      Next action s s' i request (.deleting before remaining affected)
        (.commit (.deleted affected))
  | committed {result : Result κ φ υ} (tokens : s'.tokens = s.tokens.commit i)
      (logged : Sessions.rotated i request result ⊆ s'.rotations) :
      Next action s s' i request (.commit result) (.returned result)
  | crashed {pc : Pc κ φ υ} : Next action s s' i request pc .crashed

/-- Where a step takes the calls: it begins one, takes one to its next statement, or neither. -/
inductive Moved (action : Sessions.Action κ φ υ ι) (s s' : Sessions κ φ υ ι) : Prop
  | stayed (calls : s'.calls = s.calls) (tokens : s'.tokens = s.tokens)
  | began {i : ι} {request : Request κ φ υ} (new : s.calls i = none)
      (calls : s'.calls = Function.update s.calls i (some ⟨request, request.begin⟩))
      (tokens : s'.tokens = s.tokens)
  | moved {i : ι} {call : Call κ φ υ} {pc : Pc κ φ υ} (here : s.calls i = some call)
      (calls : s'.calls = Function.update s.calls i (some { call with pc }))
      (keeps : ∀ j, j ≠ i → s.tokens.Keeps s'.tokens j)
      (next : Next action s s' i call.request call.pc pc)

omit [DecidableEq κ] in
/-- A row that the statement need not revoke. -/
theorem RowDone.skip {scope : Scope φ υ}
    (skips : ∀ a, s.tokens.view i l = some a → ¬ scope.revokes a) (pc : Pc κ φ υ) :
    RowDone scope s (s.goto i call pc) i l where
  rows := rfl
  rotations := rfl
  revoked a there covers unrevoked := by
    by_cases mine : s.tokens.holder l = some i
    · refine ⟨mine, fun b seen covered => ?_⟩
      by_contra alive
      exact skips b seen (Bool.and_eq_true_iff.mpr ⟨covered, by simpa using alive⟩)
    · refine (skips a ((RowStore.view_of_not_held mine).trans there) ?_).elim
      exact Bool.and_eq_true_iff.mpr ⟨covers, by simpa using unrevoked⟩
  others _ _ := ⟨rfl, rfl⟩

theorem moved_lockNext (here : s.calls i = some call)
    (locks : s.lockNext i l call = some s') : Moved (.lock i l) s s' := by
  unfold Sessions.lockNext at locks
  split at locks
  next scope revokedAt remaining result at_ =>
    split_ifs at locks with may
    have next : ∀ {s' : Sessions κ φ υ ι}, RowDone scope s s' i l →
        Next (.lock i l) s s' i call.request call.pc
          (.updating scope revokedAt (remaining.erase l) result) := by
      intro s' done
      rw [at_]
      exact .locked rfl may.1 done
    split at locks
    next gone =>
      cases locks
      exact .moved here rfl (fun j _ => .refl _ j) (next (.skip (by simp [gone]) _))
    next row seen =>
      split_ifs at locks with revokes <;> cases locks
      · refine .moved here rfl (fun _ other => RowStore.keeps_write other may.2)
          (next ⟨rfl, rfl, fun _ _ _ _ => ⟨RowStore.holder_write_self, ?_⟩, ?_⟩)
        · intro b seen _
          have seen : (s.tokens.write i l _).view i l = some b := seen
          rw [RowStore.view_write_self] at seen
          cases seen
          rfl
        · exact fun k other => ⟨RowStore.holder_write_ne other, RowStore.view_write_ne other⟩
      · refine .moved here rfl (fun j _ => .refl _ j) (next (.skip ?_ _))
        intro a there
        rw [seen] at there
        cases there
        exact revokes
  next before remaining affected at_ =>
    split_ifs at locks with may
    have next : ∀ {s' : Sessions κ φ υ ι} {affected' : Nat}, Next (.lock i l) s s' i call.request
        call.pc (.deleting before (remaining.erase l) affected') := by
      intro s' affected'
      rw [at_]
      exact .deleting
    split at locks
    next =>
      cases locks
      exact .moved here rfl (fun j _ => .refl _ j) next
    next =>
      split_ifs at locks <;> cases locks
      · exact .moved here rfl (fun _ other => RowStore.keeps_write other may.2) next
      · exact .moved here rfl (fun j _ => .refl _ j) next
  next => cases locks

theorem moved_insertNext {familyId : φ} (inv : CallsInv s) (here : s.calls i = some call)
    (inserts : s.insertNext ttl i token familyId call = some s') :
    Moved (.insert i token familyId) s s' := by
  unfold Sessions.insertNext at inserts
  split at inserts
  next userId request at_ =>
    split_ifs at inserts with used
    have free : s.tokens.Free i token := .inl (inv.within token (not_or.mp used).1).2
    cases inserts
    refine .moved here rfl (fun _ other => RowStore.keeps_write other free) ?_
    rw [at_]
    refine .inserted fun a seen => ?_
    have seen : (s.tokens.write i token _).view i token = some a := seen
    rw [RowStore.view_write_self] at seen
    cases seen
    exact (not_or.mp used).2
  next current at_ =>
    split_ifs at inserts with used
    have free : s.tokens.Free i token := .inl (inv.within token used).2
    cases inserts
    refine .moved here rfl (fun _ other => RowStore.keeps_write other free) ?_
    rw [at_]
    exact .created
  next => cases inserts

theorem moved_advance (here : s.calls i = some call) (advances : s.advance i call = some s') :
    Moved (.advance i) s s' := by
  unfold Sessions.advance at advances
  split at advances
  next token rotate at_ =>
    split at advances
    next none =>
      cases advances
      refine .moved here rfl (fun j _ => .refl _ j) ?_
      rw [at_]
      exact .unknown rotate none
    next current there =>
      split_ifs at advances with free
      cases advances
      refine .moved here rfl (fun _ other => RowStore.keeps_lock other free) ?_
      rw [at_]
      exact .checked rotate there RowStore.rows_lock
  next token current next expiresAt rotate at_ =>
    split_ifs at advances with free
    split at advances <;> cases advances
    · refine .moved here rfl (fun j _ => .refl _ j) ?_
      rw [at_]
      exact .replaced
    · refine .moved here rfl (fun _ other => RowStore.keeps_write other free) ?_
      rw [at_]
      exact .replaced
  next token revoke at_ =>
    split at advances <;> cases advances
    · refine .moved here rfl (fun j _ => .refl _ j) ?_
      rw [at_]
      exact .ignored
    · refine .moved here rfl (fun j _ => .refl _ j) ?_
      rw [at_]
      exact .found
  next scope result at_ =>
    cases advances
    refine .moved here rfl (fun j _ => .refl _ j) ?_
    rw [at_]
    exact .selected rfl rfl
  next scope revokedAt remaining result at_ =>
    split_ifs at advances with done
    cases advances
    subst done
    refine .moved here rfl (fun j _ => .refl _ j) ?_
    rw [at_]
    exact .updated rfl
  next before at_ =>
    cases advances
    refine .moved here rfl (fun j _ => .refl _ j) ?_
    rw [at_]
    exact .delete
  next before remaining affected at_ =>
    split_ifs at advances
    cases advances
    refine .moved here rfl (fun j _ => .refl _ j) ?_
    rw [at_]
    exact .deleted
  next result at_ =>
    cases advances
    refine .moved here rfl (fun _ other => RowStore.keeps_commit other) ?_
    rw [at_]
    exact .committed rfl (List.subset_append_left _ _)
  next => cases advances

theorem moved_of_step (inv : CallsInv s) (stepped : Sessions.step ttl action s = some s') :
    Moved action s s' := by
  cases action with
  | tick now =>
    simp only [Sessions.step] at stepped
    split_ifs at stepped
    cases stepped
    exact .stayed rfl rfl
  | call i request =>
    simp only [Sessions.step] at stepped
    split_ifs at stepped with new
    cases stepped
    exact .began new rfl rfl
  | insert i token familyId =>
    obtain ⟨call, here, inserts⟩ := Option.bind_eq_some_iff.mp stepped
    exact moved_insertNext inv here inserts
  | lock i token =>
    obtain ⟨call, here, locks⟩ := Option.bind_eq_some_iff.mp stepped
    exact moved_lockNext here locks
  | advance i =>
    obtain ⟨call, here, advances⟩ := Option.bind_eq_some_iff.mp stepped
    exact moved_advance here advances
  | crash i =>
    obtain ⟨call, here, rfl⟩ := Option.map_eq_some_iff.mp stepped
    exact .moved here rfl (fun _ other => RowStore.keeps_rollback other) .crashed

end Finstack.RefreshTokens
