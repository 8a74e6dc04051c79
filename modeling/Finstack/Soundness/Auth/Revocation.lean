import Mathlib.Data.Fintype.Basic
import Finstack.Soundness.Auth.Exchange

/-! # What a revocation ends

An `UPDATE` that revokes only finds the tokens that are committed when it begins. It ends a family
if none of those is rotated before the `UPDATE` has locked it. A rotation that is faster leaves a
successor behind that nobody revokes.
-/

namespace Finstack.RefreshTokens

open Foundation

variable {κ φ υ ι : Type} [DecidableEq κ] [DecidableEq φ] [DecidableEq υ] [DecidableEq ι]
  {s s' : Sessions κ φ υ ι} {i j : ι} {k l : κ} {g : φ} {call : Call κ φ υ} {pc : Pc κ φ υ}
  {a b : RefreshToken κ φ υ} {scope : Scope φ υ} {result : Result κ φ υ} {ttl : Nat}
  {action : Sessions.Action κ φ υ ι}

/-! ## One revocation and one family -/

/-- An unrevoked token of the family. -/
def Alive (s : Sessions κ φ υ ι) (g : φ) (l : κ) : Prop :=
  ∃ a, s.tokens.rows l = some a ∧ a.familyId = g ∧ a.revokedAt = none

/-- The `UPDATE` of `i` has locked this row, and revoked it. -/
def Done (s : Sessions κ φ υ ι) (i : ι) (scope : Scope φ υ) (l : κ) : Prop :=
  s.tokens.holder l = some i ∧
    ∀ b, s.tokens.view i l = some b → scope.covers b → b.revokedAt.isSome

/-- How far the revocation of `i` has come with the family: what is alive is still to be locked,
done, or the successor of a token that was rotated before it was locked. -/
def Pc.Revokes (scope : Scope φ υ) (g : φ) (result : Result κ φ υ) (s : Sessions κ φ υ ι) (i : ι) :
    Pc κ φ υ → Prop
  | .update scope' result' => scope' = scope ∧ result' = result
  | .updating scope' _ remaining result' => scope' = scope ∧ result' = result ∧
      ∀ l, Alive s g l → l ∈ remaining ∨ Done s i scope l ∨
        ∃ r ∈ s.rotations, r.familyId = g ∧ r.token ∈ remaining
  | .commit result' => result' = result ∧ ∀ l, Alive s g l → Done s i scope l
  | .returned result' => result' = result ∧ ∀ l, ¬ Alive s g l
  | .crashed => True
  | _ => False

structure Revoking (scope : Scope φ υ) (g : φ) (result : Result κ φ υ) (i : ι)
    (s : Sessions κ φ υ ι) : Prop where
  plain : result.Plain
  known : g ∈ s.families
  covers : ∀ l a, s.tokens.rows l = some a → a.familyId = g → scope.covers a
  notIssued : ∀ j call token expiresAt, s.calls j = some call →
    call.pc = .commit (.issued token expiresAt) →
    ∀ a, s.tokens.view j token = some a → a.familyId ≠ g
  stage : ∃ call, s.calls i = some call ∧ call.pc.Revokes scope g result s i

/-- An `UPDATE` that revokes is locking its rows. -/
def Pc.updates : Pc κ φ υ → Bool
  | .updating _ _ _ _ => true
  | _ => false

/-- The row that the `UPDATE` of `i` locks was not rotated, if it is of the family. -/
def Unrotated (i : ι) (g : φ) (action : Sessions.Action κ φ υ ι) (s : Sessions κ φ υ ι)
    (pc : Pc κ φ υ) : Prop :=
  ∀ l scope revokedAt remaining result, action = .lock i l →
    pc = .updating scope revokedAt remaining result → l ∈ remaining →
      ∀ r ∈ s.rotations, r.familyId = g → r.token ≠ l

omit [DecidableEq κ] in
/-- A scope covers whole families. -/
theorem covers_congr (family : b.familyId = a.familyId) (user : b.userId = a.userId) :
    scope.covers b = scope.covers a := by
  cases scope <;> simp [Scope.covers, family, user]

omit [DecidableEq φ] [DecidableEq υ] in
/-- A token comes alive as the successor of one that was. -/
theorem Change.alive (change : Change s s')
    (notIssued : ∀ j call token expiresAt, s.calls j = some call →
      call.pc = .commit (.issued token expiresAt) →
      ∀ a, s.tokens.view j token = some a → a.familyId ≠ g)
    (alive : Alive s' g l) : Alive s g l ∨ ∃ j token next expiresAt userId familyId,
      s.calls j = some ⟨.rotate token, .commit (.rotated next expiresAt userId familyId)⟩ ∧
      s.tokens.holder token = some j ∧ Alive s g token ∧
      ∃ r ∈ s'.rotations, r.familyId = g ∧ r.token = token := by
  obtain ⟨b, after, family, unrevoked⟩ := alive
  cases change with
  | evolved rows rotations =>
    have evolves := rows l
    rw [after] at evolves
    exact .inl ⟨b, evolves.unrevoked unrevoked, family, unrevoked⟩
  | @rotated j token next expiresAt current replaced row here locked there unrevoked' vacant new
      replaces issues rows rotations =>
    rw [rows] at after
    rcases eq_or_ne l next with rfl | first
    · obtain rfl : row = b := by simpa using after
      have family := issues.familyId.symm.trans family
      refine .inr ⟨j, token, l, expiresAt, _, _, here, locked, ⟨current, there, family, unrevoked'⟩,
        ⟨j, token, l, current.userId, current.familyId⟩, ?_, family, rfl⟩
      rw [rotations]
      exact List.mem_cons_self
    · rcases eq_or_ne l token with rfl | second
      · obtain rfl : replaced = b := by simpa [first] using after
        have revoked := replaces.revokedAt
        rw [unrevoked] at revoked
        cases revoked
      · exact .inl ⟨b, by simpa [first, second] using after, family, unrevoked⟩
  | @issued j userId token expiresAt row here seen vacant new issues fresh rows rotations =>
    rw [rows] at after
    rcases eq_or_ne l token with rfl | other
    · obtain rfl : row = b := by simpa using after
      exact (notIssued j _ l expiresAt here rfl row seen family).elim
    · exact .inl ⟨b, by simpa [other] using after, family, unrevoked⟩

/-- The revocation is not the one that moves. -/
theorem Pc.Revokes.stays (revokes : pc.Revokes scope g result s i) (plain : result.Plain)
    (here : s.calls i = some call) (at_ : call.pc = pc) (change : Change s s')
    (keeps : s.tokens.Keeps s'.tokens i)
    (notIssued : ∀ j call token expiresAt, s.calls j = some call →
      call.pc = .commit (.issued token expiresAt) →
      ∀ a, s.tokens.view j token = some a → a.familyId ≠ g) :
    pc.Revokes scope g result s' i := by
  have done : ∀ l, Done s i scope l → Done s' i scope l := by
    rintro l ⟨mine, revoked⟩
    refine ⟨(keeps l).1.mpr mine, fun b seen => revoked b ?_⟩
    rwa [((keeps l).2 mine).2] at seen
  -- who rotates a row that the revocation has locked, is the revocation
  have mine : ∀ {j token next expiresAt userId familyId},
      s.calls j = some ⟨.rotate token, .commit (.rotated next expiresAt userId familyId)⟩ →
      s.tokens.holder token = some j → Done s i scope token →
      pc = .commit (.rotated next expiresAt userId familyId) := by
    rintro j token next expiresAt userId familyId there held ⟨locked, -⟩
    obtain rfl : j = i := Option.some.inj (held.symm.trans locked)
    rw [here] at there
    cases there
    exact at_.symm
  cases pc with
  | update scope' result' => exact revokes
  | updating scope' revokedAt remaining result' =>
    refine ⟨revokes.1, revokes.2.1, fun l alive => ?_⟩
    have later : (∃ r ∈ s.rotations, r.familyId = g ∧ r.token ∈ remaining) →
        ∃ r ∈ s'.rotations, r.familyId = g ∧ r.token ∈ remaining := by
      rintro ⟨r, member, rest⟩
      exact ⟨r, change.rotations_subset member, rest⟩
    rcases change.alive notIssued alive with old |
      ⟨j, token, next, expiresAt, userId, familyId, there, held, old, r, member, family, rfl⟩
    · rcases revokes.2.2 l old with first | second | third
      · exact .inl first
      · exact .inr (.inl (done l second))
      · exact .inr (.inr (later third))
    · rcases revokes.2.2 r.token old with first | second | third
      · exact .inr (.inr ⟨r, member, family, first⟩)
      · cases mine there held second
      · exact .inr (.inr (later third))
  | commit result' =>
    refine ⟨revokes.1, fun l alive => ?_⟩
    rcases change.alive notIssued alive with old |
      ⟨j, token, next, expiresAt, userId, familyId, there, held, old, -⟩
    · exact done l (revokes.2 l old)
    · have same := mine there held (revokes.2 token old)
      obtain rfl := revokes.1
      cases same
      exact plain.elim
  | returned result' =>
    refine ⟨revokes.1, fun l alive => ?_⟩
    rcases change.alive notIssued alive with old | ⟨_, token, _, _, _, _, _, _, old, _⟩
    · exact revokes.2 l old
    · exact revokes.2 token old
  | crashed => trivial
  | insert | lockCurrent | insertNext | replaceCurrent | findRevoked | delete | deleting =>
    exact revokes.elim

/-- The next statement of the revocation. -/
theorem Pc.Revokes.next {pc' : Pc κ φ υ} {request : Request κ φ υ}
    (revokes : pc.Revokes scope g result s i) (plain : result.Plain) (within : s.tokens.Within s.ids)
    (covers : ∀ l a, s.tokens.rows l = some a → a.familyId = g → scope.covers a)
    (holds : pc.Holds s i request) (unrotated : Unrotated i g action s pc)
    (next : Next action s s' i request pc pc') : pc'.Revokes scope g result s' i := by
  cases next with
  | @selected scope' result' tokens rotations =>
    obtain ⟨rfl, rfl⟩ := revokes
    refine ⟨rfl, rfl, fun l alive => ?_⟩
    obtain ⟨a, there, family, unrevoked⟩ := alive
    rw [tokens] at there
    have covered := covers l a there family
    by_cases mine : s.tokens.holder l = some i
    · -- a row that the call has locked before: it was left as it is, or revoked
      have evolves := holds.2 l mine
      rw [there] at evolves
      by_cases same : s.tokens.view i l = some a
      · left
        refine List.mem_filter.mpr ⟨within.of_view (i := i) (by rw [same]; rfl), ?_⟩
        rw [same]
        exact Bool.and_eq_true_iff.mpr ⟨covered, by simpa using unrevoked⟩
      · right; left
        refine ⟨tokens ▸ mine, fun b seen _ => ?_⟩
        rw [tokens] at seen
        obtain ⟨c, before, -, -, -, rfl | ⟨-, revoked, -⟩⟩ := evolves b seen
        · exact (same (seen.trans before.symm)).elim
        · exact revoked
    · left
      have seen := (RowStore.view_of_not_held mine).trans there
      refine List.mem_filter.mpr ⟨within.of_view (i := i) (by rw [seen]; rfl), ?_⟩
      rw [seen]
      exact Bool.and_eq_true_iff.mpr ⟨covered, by simpa using unrevoked⟩
  | @locked scope' revokedAt remaining result' l₀ here member done =>
    obtain ⟨rfl, rfl, stage⟩ := revokes
    refine ⟨rfl, rfl, fun l alive => ?_⟩
    obtain ⟨a, there, family, unrevoked⟩ := alive
    rw [done.rows] at there
    rcases eq_or_ne l l₀ with rfl | other
    · exact .inr (.inl (done.revoked a there (covers l a there family) unrevoked))
    · rcases stage l ⟨a, there, family, unrevoked⟩ with first | ⟨mine, second⟩ | ⟨r, old, of, third⟩
      · exact .inl ((List.mem_erase_of_ne other).mpr first)
      · right; left
        obtain ⟨holder, view⟩ := done.others l other
        exact ⟨holder.trans mine, fun b seen => second b (view ▸ seen)⟩
      · right; right
        rw [done.rotations]
        exact ⟨r, old, of, (List.mem_erase_of_ne (unrotated l₀ _ _ _ _ here rfl member r old of)).mpr third⟩
  | @updated scope' revokedAt result' tokens =>
    obtain ⟨rfl, rfl, stage⟩ := revokes
    refine ⟨rfl, fun l alive => ?_⟩
    obtain ⟨a, there, rest⟩ := alive
    rw [tokens] at there
    rcases stage l ⟨a, there, rest⟩ with first | ⟨mine, second⟩ | ⟨r, -, -, third⟩
    · cases first
    · exact ⟨tokens ▸ mine, fun b seen => second b (tokens ▸ seen)⟩
    · cases third
  | @committed result' tokens logged =>
    obtain ⟨rfl, stage⟩ := revokes
    refine ⟨rfl, fun l alive => ?_⟩
    obtain ⟨b, after, family, unrevoked⟩ := alive
    rw [tokens] at after
    have seen : s.tokens.view i l = some b := after
    have evolves : Evolves (s.tokens.rows l) (s.tokens.view i l) := by
      cases result' <;> first | exact plain.elim | exact evolves_view holds l
    rw [seen] at evolves
    have before := evolves.unrevoked unrevoked
    have revoked := (stage l ⟨b, before, family, unrevoked⟩).2 b seen (covers l b before family)
    rw [unrevoked] at revoked
    cases revoked
  | crashed => trivial
  | inserted | unknown | checked | created | replaced | ignored | found | delete | deleting
  | deleted => exact revokes.elim

omit [DecidableEq φ] [DecidableEq υ] in
/-- Rows of the family stay covered. -/
theorem Change.covers [DecidableEq φ] [DecidableEq υ] (change : Change s s')
    (covers : ∀ l a, s.tokens.rows l = some a → a.familyId = g → scope.covers a)
    (notIssued : ∀ j call token expiresAt, s.calls j = some call →
      call.pc = .commit (.issued token expiresAt) →
      ∀ a, s.tokens.view j token = some a → a.familyId ≠ g)
    (after : s'.tokens.rows l = some b) (family : b.familyId = g) : scope.covers b := by
  cases change with
  | evolved rows rotations =>
    obtain ⟨a, before, family', user, -⟩ := rows l b after
    rw [covers_congr family' user]
    exact covers l a before (family'.symm.trans family)
  | @rotated j token next expiresAt current replaced row here locked there unrevoked' vacant new
      replaces issues rows rotations =>
    rw [rows] at after
    rcases eq_or_ne l next with rfl | first
    · obtain rfl : row = b := by simpa using after
      rw [covers_congr issues.familyId issues.userId]
      exact covers token current there (issues.familyId.symm.trans family)
    · rcases eq_or_ne l token with rfl | second
      · obtain rfl : replaced = b := by simpa [first] using after
        rw [covers_congr replaces.familyId replaces.userId]
        exact covers l current there (replaces.familyId.symm.trans family)
      · exact covers l b (by simpa [first, second] using after) family
  | @issued j userId token expiresAt row here seen vacant new issues fresh rows rotations =>
    rw [rows] at after
    rcases eq_or_ne l token with rfl | other
    · obtain rfl : row = b := by simpa using after
      exact (notIssued j _ l expiresAt here rfl row seen family).elim
    · exact covers l b (by simpa [other] using after) family

/-- A token that is being issued is of a family that is not known before. -/
theorem notIssued_step (inv : CallsInv s) (known : g ∈ s.families)
    (notIssued : ∀ j call token expiresAt, s.calls j = some call →
      call.pc = .commit (.issued token expiresAt) →
      ∀ a, s.tokens.view j token = some a → a.familyId ≠ g)
    (moved : Moved action s s') {token : κ} {expiresAt : Nat} (here : s'.calls j = some call)
    (at_ : call.pc = .commit (.issued token expiresAt))
    (seen : s'.tokens.view j token = some a) : a.familyId ≠ g := by
  cases moved with
  | stayed calls tokens =>
    rw [calls] at here
    rw [tokens] at seen
    exact notIssued j call token expiresAt here at_ a seen
  | @began i request new calls tokens =>
    rw [calls] at here
    rw [tokens] at seen
    rcases eq_or_ne j i with rfl | other
    · obtain rfl : _ = call := by simpa using here
      cases request <;> cases at_
    · rw [Function.update_of_ne other] at here
      exact notIssued j call token expiresAt here at_ a seen
  | @moved i old pc before calls keeps next =>
    rw [calls] at here
    rcases eq_or_ne j i with rfl | other
    · obtain rfl : _ = call := by simpa using here
      have holds := inv.calls j old before
      obtain ⟨request, pc'⟩ := old
      have at_ : pc = .commit (.issued token expiresAt) := at_
      cases next with
      | inserted fresh =>
        cases at_
        rintro rfl
        exact fresh a seen known
      | updated tokens =>
        cases at_
        exact holds.1.elim
      | checked =>
        unfold checked at at_
        split_ifs at at_ <;> cases at_
      | unknown | created | replaced | ignored | found | selected | locked | delete | deleting
      | deleted | committed | crashed => cases at_
    · rw [Function.update_of_ne other] at here
      have holds := inv.calls j call here
      rw [at_] at holds
      obtain ⟨row, userId, -, inserted, -⟩ := holds
      rw [((keeps j other token).2 inserted.locked).2] at seen
      exact notIssued j call token expiresAt here at_ a seen

theorem Revoking.step (inv : CallsInv s) (revoking : Revoking scope g result i s)
    (unrotated : ∀ call ∈ s.calls i, Unrotated i g action s call.pc)
    (stepped : Sessions.step ttl action s = some s') : Revoking scope g result i s' := by
  have change := (inv.step stepped).2
  have moved := moved_of_step inv stepped
  refine ⟨revoking.plain, (grown_of_step stepped).2.1 revoking.known,
    fun l a => change.covers revoking.covers revoking.notIssued,
    fun j call token expiresAt here at_ a =>
      notIssued_step inv revoking.known revoking.notIssued moved here at_, ?_⟩
  obtain ⟨call, here, stage⟩ := revoking.stage
  cases moved with
  | stayed calls tokens =>
    refine ⟨call, calls ▸ here, stage.stays revoking.plain here rfl change ?_ revoking.notIssued⟩
    rw [tokens]
    exact .refl _ i
  | @began j request new calls tokens =>
    have other : i ≠ j := by
      rintro rfl
      rw [new] at here
      cases here
    refine ⟨call, ?_, stage.stays revoking.plain here rfl change ?_ revoking.notIssued⟩
    · rw [calls, Function.update_of_ne other]
      exact here
    · rw [tokens]
      exact .refl _ i
  | @moved j old pc before calls keeps next =>
    rcases eq_or_ne i j with rfl | other
    · obtain rfl : call = old := Option.some.inj (here.symm.trans before)
      refine ⟨{ call with pc }, ?_, ?_⟩
      · rw [calls, Function.update_self]
      · exact stage.next revoking.plain inv.within revoking.covers (inv.calls i call here)
          (unrotated call here) next
    · refine ⟨call, ?_, stage.stays revoking.plain here rfl change (keeps i other)
        revoking.notIssued⟩
      rw [calls, Function.update_of_ne other]
      exact here

omit [DecidableEq κ] in
/-- A revocation that begins its `UPDATE` on a family with a committed token. -/
theorem Revoking.of_update (inv : CallsInv s) (chains : Chains s) (here : s.calls i = some call)
    (at_ : call.pc = .update scope result) (there : s.tokens.rows k = some a)
    (covered : scope.covers a) : Revoking scope a.familyId result i s where
  plain := by
    have holds := inv.calls i call here
    rw [at_] at holds
    exact holds.1
  known := inv.families k a (.inl there)
  covers l b there' family := by
    rw [covers_congr family (chains.user l k b a there' there family)]
    exact covered
  notIssued j call token expiresAt here at_ b seen family := by
    have holds := inv.calls j call here
    rw [at_] at holds
    obtain ⟨row, userId, -, inserted, -, -, own, only⟩ := holds
    obtain rfl : row = b := Option.some.inj (inserted.view.symm.trans seen)
    obtain rfl := only k (own k a (.inl there) family.symm)
    rw [inserted.vacant] at there
    cases there
  stage := ⟨call, here, by rw [at_]; exact ⟨rfl, rfl⟩⟩

/-! ## Runs -/

/-- What holds in every run. -/
structure Inv (s : Sessions κ φ υ ι) : Prop where
  calls : CallsInv s
  chains : Chains s
  logged : Logged s

theorem Inv.step (inv : Inv s) (stepped : Sessions.step ttl action s = some s') : Inv s' where
  calls := (inv.calls.step stepped).1
  chains := inv.chains.change (inv.calls.step stepped).2
  logged := inv.logged.step (inv.calls.step stepped).2 (moved_of_step inv.calls stepped)

omit [DecidableEq κ] [DecidableEq φ] [DecidableEq υ] in
theorem Inv.start (now : Nat) : Inv (Sessions.start now : Sessions κ φ υ ι) where
  calls := .start now
  chains := .start now
  logged := by
    intro i request result here
    cases here

theorem inv_of_reaches {Admits : Sessions.Action κ φ υ ι → Sessions κ φ υ ι → Prop} {now : Nat}
    (run : Sessions.Reaches ttl Admits (.start now) s) : Inv s :=
  run.invariant Inv (fun _ _ _ inv _ stepped => inv.step stepped) (.start now)

/-- Whenever an `UPDATE` that revokes locks a row, the row has not been rotated. -/
def UpToDate : Sessions.Action κ φ υ ι → Sessions κ φ υ ι → Prop
  | .lock i l, s => ∀ call ∈ s.calls i, call.pc.updates → ∀ r ∈ s.rotations, r.token ≠ l
  | _, _ => True

instance : ∀ (action : Sessions.Action κ φ υ ι) (s : Sessions κ φ υ ι),
    Decidable (UpToDate action s)
  | .lock i l, s => inferInstanceAs
      (Decidable (∀ call ∈ s.calls i, call.pc.updates → ∀ r ∈ s.rotations, r.token ≠ l))
  | .tick _, _ | .call _ _, _ | .insert _ _ _, _ | .advance _, _ | .crash _, _ => .isTrue trivial

/-- A revocation whose rows are not rotated ends the families that it covers. -/
theorem Revoking.of_reaches (inv : Inv s) (revoking : Revoking scope g result i s)
    (run : Sessions.Reaches ttl UpToDate s s') : Inv s' ∧ Revoking scope g result i s' := by
  apply run.invariant fun s => Inv s ∧ Revoking scope g result i s
  · rintro action s s' ⟨inv, revoking⟩ upToDate stepped
    refine ⟨inv.step stepped, revoking.step inv.calls ?_ stepped⟩
    rintro call here l scope revokedAt remaining result rfl at_ - r member -
    exact upToDate call here (by rw [at_]; rfl) r member
  · exact ⟨inv, revoking⟩

/-- No other call is rotating a token of the family. -/
def Alone (i : ι) (g : φ) (_ : Sessions.Action κ φ υ ι) (s : Sessions κ φ υ ι) : Prop :=
  ∀ j call token a, j ≠ i → s.calls j = some call → call.request = .rotate token →
    s.tokens.rows token = some a → a.familyId = g →
    (∃ result, call.pc = .returned result) ∨ call.pc = .crashed

/-! ## A token that comes back -/

/-- The call presents a token that was rotated, whose row is `a`: it does not find it, or it
revokes the family. -/
structure Reused (k : κ) (a : RefreshToken κ φ υ) (i : ι) (s : Sessions κ φ υ ι) : Prop where
  known : k ∈ s.ids
  same : ∀ b, s.tokens.Shows k b → b = a
  stage : ∀ call, s.calls i = some call → call.request = .rotate k →
    call.pc = .lockCurrent ∨ call.pc = .crashed ∨
    (call.pc = .commit .invalid ∨ call.pc = .returned .invalid) ∧ s.tokens.rows k = none ∨
    Revoking (.family a.familyId) a.familyId (.reused a.userId a.familyId) i s ∧
      ∀ scope revokedAt remaining result, call.pc = .updating scope revokedAt remaining result →
        ∀ r ∈ s.rotations, r.familyId = a.familyId → r.token ∉ remaining

omit [DecidableEq φ] [DecidableEq υ] in
/-- A row that is gone does not come back revoked. -/
theorem Change.gone (change : Change s s') (gone : s.tokens.rows k = none)
    (revoked : b.revokedAt.isSome) : s'.tokens.rows k ≠ some b := by
  intro after
  cases change with
  | evolved rows rotations =>
    obtain ⟨a, before, -⟩ := rows k b after
    rw [gone] at before
    cases before
  | @rotated j token next expiresAt current replaced row here locked there unrevoked vacant new
      replaces issues rows rotations =>
    rw [rows] at after
    rcases eq_or_ne k next with rfl | first
    · obtain rfl : row = b := by simpa using after
      rw [issues.revokedAt] at revoked
      cases revoked
    · rcases eq_or_ne k token with rfl | second
      · rw [gone] at there
        cases there
      · have before : s.tokens.rows k = some b := by simpa [first, second] using after
        rw [gone] at before
        cases before
  | @issued j userId token expiresAt row here seen vacant new issues fresh rows rotations =>
    rw [rows] at after
    rcases eq_or_ne k token with rfl | other
    · obtain rfl : row = b := by simpa using after
      rw [issues.revokedAt] at revoked
      cases revoked
    · have before : s.tokens.rows k = some b := by simpa [other] using after
      rw [gone] at before
      cases before

omit [DecidableEq φ] [DecidableEq υ] in
/-- A rotation that is new is of a call that has locked an unrevoked token of its family. -/
theorem Change.rotations_cases (change : Change s s') {r : Rotation κ φ υ ι}
    (member : r ∈ s'.rotations) : r ∈ s.rotations ∨ ∃ j token next expiresAt userId familyId a,
      s.calls j = some ⟨.rotate token, .commit (.rotated next expiresAt userId familyId)⟩ ∧
      s.tokens.rows token = some a ∧ a.familyId = r.familyId := by
  cases change with
  | evolved _ rotations => exact .inl (rotations ▸ member)
  | @rotated j token next expiresAt current _ _ here _ there _ _ _ _ _ _ rotations =>
    rw [rotations] at member
    rcases List.mem_cons.mp member with rfl | old
    · exact .inr ⟨j, token, next, expiresAt, _, _, current, here, there, rfl⟩
    · exact .inl old
  | issued _ _ _ _ _ _ _ rotations => exact .inl (rotations ▸ member)

theorem Reused.step (inv : Inv s) (rotated : a.revokedAt.isSome ∧ a.replacedById.isSome)
    (reused : Reused k a i s) (alone : Alone i a.familyId action s)
    (stepped : Sessions.step ttl action s = some s') : Reused k a i s' := by
  have inv' := inv.step stepped
  have change := (inv.calls.step stepped).2
  have moved := moved_of_step inv.calls stepped
  have same : ∀ b, s'.tokens.Shows k b → b = a := by
    intro b shown
    rcases shows_of_step inv.calls stepped shown with old | new | ⟨-, c, old, unrevoked⟩
    · exact reused.same b old
    · exact (new reused.known).elim
    · rw [reused.same c old] at unrevoked
      rw [unrevoked] at rotated
      cases rotated.1
  have gone : s.tokens.rows k = none → s'.tokens.rows k = none := by
    intro gone
    by_contra back
    obtain ⟨b, back⟩ := Option.ne_none_iff_exists'.mp back
    refine change.gone gone ?_ back
    rw [same b (.inl back)]
    exact rotated.1
  -- a rotation of the family is by nobody else, and the call itself is not rotating
  have unrotated : ∀ call, s.calls i = some call → (∃ scope revokedAt remaining result,
      call.pc = .updating scope revokedAt remaining result) →
      ∀ r ∈ s'.rotations, r.familyId = a.familyId → r ∈ s.rotations := by
    rintro call here ⟨scope, revokedAt, remaining, result, at_⟩ r member family
    rcases change.rotations_cases member with old |
      ⟨j, token, next, expiresAt, userId, familyId, c, there, row, of⟩
    · exact old
    · rcases eq_or_ne j i with rfl | other
      · rw [here] at there
        cases there
        cases at_
      · rcases alone j _ token c other there rfl row (of.trans family) with ⟨_, ended⟩ | ended <;>
          cases ended
  refine ⟨(grown_of_step stepped).1 reused.known, same, ?_⟩
  -- the call has not moved
  have stays : ∀ call, s.calls i = some call → s'.calls i = some call → call.request = .rotate k →
      call.pc = .lockCurrent ∨ call.pc = .crashed ∨
      (call.pc = .commit .invalid ∨ call.pc = .returned .invalid) ∧ s'.tokens.rows k = none ∨
      Revoking (.family a.familyId) a.familyId (.reused a.userId a.familyId) i s' ∧
        ∀ scope revokedAt remaining result, call.pc = .updating scope revokedAt remaining result →
          ∀ r ∈ s'.rotations, r.familyId = a.familyId → r.token ∉ remaining := by
    intro call here _ rotate
    rcases reused.stage call here rotate with first | second | ⟨third, none⟩ | ⟨revoking, fourth⟩
    · exact .inl first
    · exact .inr (.inl second)
    · exact .inr (.inr (.inl ⟨third, gone none⟩))
    · refine .inr (.inr (.inr ⟨revoking.step inv.calls ?_ stepped, ?_⟩))
      · rintro call' here' l scope revokedAt remaining result rfl at_ member r old family rfl
        rw [here] at here'
        cases here'
        exact fourth scope revokedAt remaining result at_ r old family member
      · intro scope revokedAt remaining result at_ r member family
        exact fourth scope revokedAt remaining result at_ r
          (unrotated call here ⟨_, _, _, _, at_⟩ r member family) family
  intro call here rotate
  cases moved with
  | stayed calls _ => exact stays call (calls ▸ here) here rotate
  | @began j request new calls _ =>
    rcases eq_or_ne i j with rfl | other
    · rw [calls] at here
      obtain rfl : _ = call := by simpa using here
      cases rotate
      exact .inl rfl
    · have before : s.calls i = some call := by
        rw [calls, Function.update_of_ne other] at here
        exact here
      exact stays call before here rotate
  | @moved j old pc before calls keeps next =>
    rcases eq_or_ne i j with rfl | other
    · have after := here
      rw [calls] at here
      obtain rfl : _ = call := by simpa using here
      obtain ⟨request, pc'⟩ := old
      obtain rfl : request = .rotate k := rotate
      rcases reused.stage _ before rfl with rfl | rfl | ⟨rfl | rfl, none⟩ | ⟨revoking, fourth⟩
      · cases next with
        | unknown rotate none =>
          cases rotate
          exact .inr (.inr (.inl ⟨.inl rfl, gone none⟩))
        | @checked _ current rotate there rows =>
          cases rotate
          obtain rfl : current = a := reused.same current (.inl there)
          have next : checked s.now current =
              .update (.family current.familyId) (.reused current.userId current.familyId) := by
            simp [checked, rotated.1, Option.isNone_iff_eq_none, Option.ne_none_iff_isSome.mpr rotated.2]
          refine .inr (.inr (.inr ⟨.of_update inv'.calls inv'.chains after next (rows ▸ there)
            (by simp [Scope.covers]), ?_⟩))
          intro scope revokedAt remaining result at_
          rw [next] at at_
          cases at_
        | crashed => exact .inr (.inl rfl)
      · cases next
        exact .inr (.inl rfl)
      · cases next with
        | committed => exact .inr (.inr (.inl ⟨.inr rfl, gone none⟩))
        | crashed => exact .inr (.inl rfl)
      · cases next
        exact .inr (.inl rfl)
      · refine .inr (.inr (.inr ⟨revoking.step inv.calls ?_ stepped, ?_⟩))
        · rintro call' here' l scope revokedAt remaining result rfl at_ member r old family rfl
          rw [before] at here'
          cases here'
          exact fourth scope revokedAt remaining result at_ r old family member
        · intro scope revokedAt remaining result at_ r member family rest
          have holds := inv.calls.calls i _ before
          generalize pc = target at next at_
          cases next with
          | @selected scope' result' tokens rotations =>
            cases at_
            obtain ⟨known, found⟩ := List.mem_filter.mp rest
            have evolves := evolves_view holds.2 r.token
            cases seen : s.tokens.view i r.token with
            | none =>
              rw [seen] at found
              cases found
            | some b =>
              rw [seen] at found evolves
              have unrevoked : b.revokedAt = none := by
                simpa using (Bool.and_eq_true_iff.mp found).2
              have revoked := (inv.chains.token r (rotations ▸ member) b
                (evolves.unrevoked unrevoked)).1
              rw [unrevoked] at revoked
              cases revoked
          | @locked scope' revokedAt' remaining' result' l here' member' done =>
            cases at_
            exact fourth _ _ _ _ rfl r (done.rotations ▸ member) family (List.mem_of_mem_erase rest)
          | checked =>
            unfold checked at at_
            split_ifs at at_
          | inserted | unknown | created | replaced | ignored | found | updated | delete | deleting
          | deleted | committed | crashed => cases at_
    · have before : s.calls i = some call := by
        rw [calls, Function.update_of_ne other] at here
        exact here
      exact stays call before here rotate

end Finstack.RefreshTokens
