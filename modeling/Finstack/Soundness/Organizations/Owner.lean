import Mathlib.Data.Fintype.Basic
import Finstack.Model.Organizations.Members

/-! # One owner

The partial unique index allows one owner. That there is one rests on `transferOwnership`, which
promotes a row that it has locked, and on the other calls leaving the owner's row alone. Whether a
row is the owner's they decide by what they have read before their transaction: a member who
becomes the owner meanwhile is demoted or removed.
-/

namespace Finstack.Organizations

open Foundation

variable {κ υ ι : Type} [DecidableEq κ] [DecidableEq υ] [DecidableEq ι]

/-- A role is changed, and a member is removed, of a row that is not the owner's. -/
def Pc.SparesOwner (rows : κ → Option (Membership υ)) : Pc κ υ → Prop
  | .updateRole id _ _ | .deleteMember id => ¬ (rows id).any isOwner
  | _ => True

instance (rows : κ → Option (Membership υ)) : ∀ pc : Pc κ υ, Decidable (pc.SparesOwner rows)
  | .updateRole _ _ _ | .deleteMember _ => inferInstanceAs (Decidable (¬ _))
  | .insertOwner _ | .commitCreate | .insertMember _ _ | .findMember _ _ | .findRemoved _
  | .selectMembers _ | .lockMembers _ _ _ | .demoteOwners _ | .demoting _ _ | .promote _
  | .commit _ | .returned _ | .threw _ | .crashed => .isTrue trivial

/-- What a call knows of the rows that it has locked. -/
def Pc.Holds (s : RowStore κ (Membership υ) ι) (i : ι) : Pc κ υ → Prop
  | .lockMembers _ _ members =>
    ∀ member ∈ members, s.holder member.1 = some i ∧ s.view i member.1 = some member.2
  | .demoteOwners next | .demoting next _ | .promote next =>
    s.holder next = some i ∧ (s.view i next).isSome
  -- either it has made an owner, or it has left the owner's row alone
  | .commit _ => (∃ id, s.holder id = some i ∧ (s.view i id).any isOwner) ∨
    ∀ id, s.holder id = some i → ¬ (s.rows id).any isOwner
  | .commitCreate => ∃ id, s.holder id = some i ∧ (s.view i id).any isOwner
  | .insertMember _ role | .findMember _ role | .updateRole _ _ role =>
    role ≠ .owner ∧ ∀ id, s.holder id ≠ some i
  | _ => ∀ id, s.holder id ≠ some i

omit [DecidableEq κ] [DecidableEq υ] in
theorem Pc.Holds.keeps {s s' : RowStore κ (Membership υ) ι} {j : ι} {pc : Pc κ υ}
    (holds : pc.Holds s j) (keeps : s.Keeps s' j) : pc.Holds s' j := by
  have free : (∀ id, s.holder id ≠ some j) → ∀ id, s'.holder id ≠ some j :=
    fun free id held => free id ((keeps id).1.mp held)
  have made : (∃ id, s.holder id = some j ∧ (s.view j id).any isOwner) →
      ∃ id, s'.holder id = some j ∧ (s'.view j id).any isOwner := by
    rintro ⟨id, held, owner⟩
    exact ⟨id, (keeps id).1.mpr held, ((keeps id).2 held).2 ▸ owner⟩
  cases pc with
  | lockMembers newOwnerUserId remaining members =>
    intro member read
    obtain ⟨held, row⟩ := holds member read
    exact ⟨(keeps _).1.mpr held, ((keeps _).2 held).2.trans row⟩
  | demoteOwners next => exact ⟨(keeps _).1.mpr holds.1, ((keeps _).2 holds.1).2 ▸ holds.2⟩
  | demoting next remaining => exact ⟨(keeps _).1.mpr holds.1, ((keeps _).2 holds.1).2 ▸ holds.2⟩
  | promote next => exact ⟨(keeps _).1.mpr holds.1, ((keeps _).2 holds.1).2 ▸ holds.2⟩
  | commit result =>
    apply holds.imp made
    intro spared id held
    have held := (keeps id).1.mp held
    rw [((keeps id).2 held).1]
    exact spared id held
  | commitCreate => exact made holds
  | insertMember userId role => exact ⟨holds.1, free holds.2⟩
  | findMember userId role => exact ⟨holds.1, free holds.2⟩
  | updateRole id target role => exact ⟨holds.1, free holds.2⟩
  | insertOwner | findRemoved | deleteMember | selectMembers | returned | threw | crashed =>
    exact free holds

namespace Organization

variable {o o' : Organization κ υ ι} {s : RowStore κ (Membership υ) ι} {i j : ι} {pc : Pc κ υ}
  {id : κ}

/-- The next statement of a call is `SparesOwner`. -/
def SparesOwner : Action κ υ ι → Organization κ υ ι → Prop
  | .advance i, o => ∀ pc ∈ o.calls i, pc.SparesOwner o.members.rows
  | _, _ => True

instance : ∀ (action : Action κ υ ι) (o : Organization κ υ ι), Decidable (SparesOwner action o)
  | .advance i, o => inferInstanceAs (Decidable (∀ pc ∈ o.calls i, pc.SparesOwner o.members.rows))
  | .call _ _, _ | .insert _ _, _ | .lock _ _, _ | .crash _, _ => .isTrue trivial

structure Inv (o : Organization κ υ ι) : Prop where
  one : o.members.OneOf isOwner
  within : o.members.Within o.ids
  owner : o.created → ∃ id, o.Owns id
  idle : ∀ i, o.calls i = none → ∀ id, o.members.holder id ≠ some i
  calls : ∀ i pc, o.calls i = some pc → pc.Holds o.members i

omit [DecidableEq κ] [DecidableEq υ] in
/-- A step of one call, if it leaves the others what they have locked. -/
theorem Inv.put (inv : o.Inv) {begun created : Bool} {ids : List κ} (one : s.OneOf isOwner)
    (within : s.Within ids) (keeps : ∀ j, j ≠ i → o.members.Keeps s j)
    (owner : created → ∃ id, (s.rows id).any isOwner) (holds : pc.Holds s i) :
    Inv ⟨begun, created, ids, s, Function.update o.calls i (some pc)⟩ where
  one := one
  within := within
  owner := owner
  idle j new id held := by
    rcases eq_or_ne j i with rfl | other
    · simp at new
    · have new : o.calls j = none := by simpa [other] using new
      exact inv.idle j new id ((keeps j other id).1.mp held)
  calls j pc' here := by
    rcases eq_or_ne j i with rfl | other
    · obtain rfl : pc = pc' := by simpa using here
      exact holds
    · have here : o.calls j = some pc' := by simpa [other] using here
      exact (inv.calls j pc' here).keeps (keeps j other)

omit [DecidableEq κ] [DecidableEq υ] in
/-- A step that leaves the rows alone. -/
theorem Inv.goto (inv : o.Inv) (holds : pc.Holds o.members i) : (o.goto i pc).Inv :=
  inv.put inv.one inv.within (fun j _ => .refl _ j) inv.owner holds

omit [DecidableEq κ] [DecidableEq υ] in
theorem Inv.rollback (inv : o.Inv) (holds : pc.Holds (o.members.rollback i) i) :
    ((o.rollback i).goto i pc).Inv :=
  inv.put inv.one.rollback inv.within.rollback (fun _ other => RowStore.keeps_rollback other)
    inv.owner holds

omit [DecidableEq κ] [DecidableEq υ] in
theorem holds_threw (error : Err) : (Pc.threw error : Pc κ υ).Holds (o.members.rollback i) i :=
  fun _ held => (RowStore.holder_rollback.mp held).2 rfl

omit [DecidableEq κ] [DecidableEq υ] in
theorem Inv.commit (inv : o.Inv) {begun created : Bool} {result : Option (Membership υ)}
    (owner : created → ∃ id, (o.members.view i id).any isOwner) :
    Inv ⟨begun, created, o.ids, o.members.commit i,
      Function.update o.calls i (some (.returned result))⟩ :=
  inv.put inv.one.commit inv.within.commit (fun _ other => RowStore.keeps_commit other) owner
    fun _ held => (RowStore.holder_commit.mp held).2 rfl

omit [DecidableEq υ] in
/-- A transaction that writes its only row, and not the owner's. -/
theorem holds_commit_write {row result : Option (Membership υ)} (unheld : ∀ l, s.holder l ≠ some i)
    (spares : ¬ (s.rows id).any isOwner) :
    (Pc.commit result : Pc κ υ).Holds (s.write i id row) i := by
  refine .inr fun l held => ?_
  rcases eq_or_ne l id with rfl | other
  · exact spares
  · rw [RowStore.holder_write_ne other] at held
    exact (unheld l held).elim

theorem Inv.clear_of_passes (inv : o.Inv) {membership : Membership υ} (owner : isOwner membership)
    (passes : o.checkIndexes i id membership = .passes) : o.members.Clear isOwner i id := by
  simp only [checkIndexes, owner, if_true] at passes
  split_ifs at passes with _ _ taken waits
  exact RowStore.clear_of_not_taken inv.within taken waits

/-! ## One step -/

theorem Inv.insert (inv : o.Inv) {membership : Membership υ} {next : Pc κ υ} {onError : Err → Err}
    (new : id ∉ o.ids)
    (holds : next.Holds (o.members.write i id (some membership)) i)
    (inserts : o.insert i id membership next onError = some o') : o'.Inv := by
  have unheld := (inv.within id new).2
  have free : o.members.Free i id := .inl unheld
  unfold Organization.insert at inserts
  split at inserts
  next passes =>
    cases inserts
    apply inv.put _ _ (fun _ other => RowStore.keeps_write other free) inv.owner holds
    · by_cases owner : isOwner membership
      · exact inv.one.write free (inv.clear_of_passes owner passes)
      · exact inv.one.write_other free owner
    · exact inv.within.cons.write List.mem_cons_self
  next => cases inserts
  next =>
    cases inserts
    exact inv.rollback (holds_threw _)

omit [DecidableEq κ] in
theorem Inv.selected (inv : o.Inv) {newOwnerUserId : υ} {members : List (κ × Membership υ)}
    (read : ∀ member ∈ members, o.members.holder member.1 = some i ∧
      o.members.view i member.1 = some member.2) : (o.selected i newOwnerUserId members).Inv := by
  unfold Organization.selected
  split
  next => exact inv.rollback (holds_threw _)
  next next membership found =>
    obtain ⟨held, row⟩ := read _ (List.mem_of_find?_eq_some found)
    split_ifs with owner
    · exact inv.goto (.inl ⟨next, held, by simpa [row] using owner⟩)
    · exact inv.goto ⟨held, by simp [row]⟩

omit [DecidableEq υ] in
theorem Inv.lockNext (inv : o.Inv) (here : o.calls i = some pc)
    (locks : o.lockNext i id pc = some o') : o'.Inv := by
  have holds := inv.calls i pc here
  cases pc <;> try cases locks
  case lockMembers newOwnerUserId remaining members =>
    simp only [Organization.lockNext] at locks
    split_ifs at locks with may
    have free := may.2
    split at locks <;> cases locks
    next gone => exact inv.goto holds
    next membership row =>
      have known := inv.within.of_view (i := i) (by rw [row]; rfl)
      apply inv.put (inv.one.lock free) (inv.within.lock known)
        (fun _ other => RowStore.keeps_lock other free)
      · rw [RowStore.rows_lock]
        exact inv.owner
      · rintro member read
        rcases List.mem_cons.mp read with rfl | earlier
        · exact ⟨RowStore.holder_lock_self, by rw [RowStore.view_lock]; exact row⟩
        · obtain ⟨held, row'⟩ := holds member earlier
          refine ⟨?_, by rw [RowStore.view_lock]; exact row'⟩
          rcases eq_or_ne member.1 id with same | other
          · rw [same]
            exact RowStore.holder_lock_self
          · rw [RowStore.holder_lock_ne other]
            exact held
  case demoting next remaining =>
    simp only [Organization.lockNext] at locks
    split_ifs at locks with may
    have free := may.2
    split at locks
    next gone =>
      cases locks
      exact inv.goto holds
    next membership row =>
      have known := inv.within.of_view (i := i) (by rw [row]; rfl)
      split_ifs at locks with owner <;> cases locks
      · apply inv.put (inv.one.write_other free (by simp [isOwner])) (inv.within.write known)
          (fun _ other => RowStore.keeps_write other free) inv.owner
        rcases eq_or_ne next id with rfl | other
        · exact ⟨RowStore.holder_write_self, by simp⟩
        · exact ⟨(RowStore.holder_write_ne other).trans holds.1,
            by rw [RowStore.view_write_ne other]; exact holds.2⟩
      · exact inv.goto holds

theorem Inv.advance (inv : o.Inv) (here : o.calls i = some pc)
    (spares : pc.SparesOwner o.members.rows) (advances : o.advance i pc = some o') : o'.Inv := by
  have holds := inv.calls i pc here
  cases pc with
  | insertOwner | insertMember | returned | threw | crashed => cases advances
  | commitCreate =>
    cases advances
    obtain ⟨id, -, owner⟩ := holds
    exact inv.commit fun _ => ⟨id, owner⟩
  | findMember userId role =>
    simp only [Organization.advance] at advances
    split at advances
    next =>
      cases advances
      exact inv.goto holds.2
    next id target found =>
      split_ifs at advances <;> cases advances
      · exact inv.goto holds.2
      · exact inv.goto holds
  | updateRole id target role =>
    simp only [Organization.advance] at advances
    split_ifs at advances with free
    split at advances <;> cases advances
    next => exact inv.goto (.inr fun id held => (holds.2 id held).elim)
    next membership row =>
      apply inv.put (inv.one.write_other free (by simpa [isOwner] using holds.1))
        (inv.within.write (inv.within.of_view (i := i) (by rw [row]; rfl)))
        (fun _ other => RowStore.keeps_write other free) inv.owner
      exact holds_commit_write holds.2 spares
  | findRemoved userId =>
    simp only [Organization.advance] at advances
    split at advances
    next =>
      cases advances
      exact inv.goto holds
    next id target found => split_ifs at advances <;> cases advances <;> exact inv.goto holds
  | deleteMember id =>
    simp only [Organization.advance] at advances
    split_ifs at advances with free
    split at advances <;> cases advances
    next => exact inv.goto (.inr fun id held => (holds id held).elim)
    next membership row =>
      apply inv.put (inv.one.write_other free (by simp))
        (inv.within.write (inv.within.of_view (i := i) (by rw [row]; rfl)))
        (fun _ other => RowStore.keeps_write other free) inv.owner
      exact holds_commit_write holds spares
  | selectMembers newOwnerUserId =>
    cases advances
    exact inv.goto (by simp [Pc.Holds])
  | lockMembers newOwnerUserId remaining members =>
    simp only [Organization.advance] at advances
    split_ifs at advances
    cases advances
    exact inv.selected holds
  | demoteOwners next =>
    cases advances
    exact inv.goto holds
  | demoting next remaining =>
    simp only [Organization.advance] at advances
    split_ifs at advances
    cases advances
    exact inv.goto holds
  | promote next =>
    simp only [Organization.advance] at advances
    split at advances
    next gone =>
      have there := holds.2
      rw [gone] at there
      cases there
    next membership row =>
      have free : o.members.Free i next := .inr holds.1
      split at advances <;> cases advances
      next passes =>
        apply inv.put (inv.one.write free (inv.clear_of_passes (by simp [isOwner]) passes))
          (inv.within.write (inv.within.of_view (i := i) (by rw [row]; rfl)))
          (fun _ other => RowStore.keeps_write other free) inv.owner
        exact .inl ⟨next, RowStore.holder_write_self, by simp [isOwner]⟩
      next => exact inv.rollback (holds_threw _)
  | commit result =>
    cases advances
    refine inv.commit fun created => ?_
    rcases holds with ⟨id, -, owner⟩ | spared
    · exact ⟨id, owner⟩
    · obtain ⟨id, owner⟩ := inv.owner created
      refine ⟨id, ?_⟩
      rw [RowStore.view_of_not_held fun held => spared id held owner]
      exact owner

theorem Inv.insertNext (inv : o.Inv) (here : o.calls i = some pc)
    (inserts : o.insertNext i id pc = some o') : o'.Inv := by
  have holds := inv.calls i pc here
  cases pc <;> try cases inserts
  case insertOwner userId =>
    simp only [Organization.insertNext] at inserts
    split_ifs at inserts with known
    apply inv.insert known _ inserts
    exact ⟨id, RowStore.holder_write_self, by simp [isOwner]⟩
  case insertMember userId role =>
    simp only [Organization.insertNext] at inserts
    split_ifs at inserts with known created
    · apply inv.insert known _ inserts
      apply holds_commit_write holds.2
      simp [(inv.within id known).1]
    · cases inserts
      exact inv.goto holds.2

theorem role_ne_owner {role : OrgRole} (assignable : role ∈ ASSIGNABLE_ROLES) : role ≠ .owner := by
  rintro rfl
  simp [ASSIGNABLE_ROLES] at assignable

omit [DecidableEq κ] [DecidableEq υ] in
theorem Inv.begin (inv : o.Inv) {request : Request υ} (new : o.calls i = none)
    (begins : o.begin i request = some o') : o'.Inv := by
  have unheld := inv.idle i new
  cases request with
  | create userId =>
    simp only [Organization.begin] at begins
    split_ifs at begins
    cases begins
    exact inv.put inv.one inv.within (fun j _ => .refl _ j) inv.owner unheld
  | addMember user role =>
    cases user with
    | none =>
      cases begins
      exact inv.goto unheld
    | some userId =>
      simp only [Organization.begin] at begins
      split_ifs at begins with assignable
      cases begins
      exact inv.goto ⟨role_ne_owner assignable, unheld⟩
  | changeRole userId role =>
    simp only [Organization.begin] at begins
    split_ifs at begins with assignable
    cases begins
    exact inv.goto ⟨role_ne_owner assignable, unheld⟩
  | removeMember userId =>
    cases begins
    exact inv.goto unheld
  | transferOwnership newOwnerUserId =>
    cases begins
    exact inv.goto unheld

theorem Inv.step (inv : o.Inv) {action : Action κ υ ι} (spares : SparesOwner action o)
    (stepped : step action o = some o') : o'.Inv := by
  cases action with
  | call i request =>
    simp only [Organization.step] at stepped
    split_ifs at stepped with new
    exact inv.begin new stepped
  | insert i id =>
    obtain ⟨pc, here, inserts⟩ := Option.bind_eq_some_iff.mp stepped
    exact inv.insertNext here inserts
  | lock i id =>
    obtain ⟨pc, here, locks⟩ := Option.bind_eq_some_iff.mp stepped
    exact inv.lockNext here locks
  | advance i =>
    obtain ⟨pc, here, advances⟩ := Option.bind_eq_some_iff.mp stepped
    exact inv.advance here (spares pc here) advances
  | crash i =>
    obtain ⟨pc, here, rfl⟩ := Option.map_eq_some_iff.mp stepped
    exact inv.rollback fun _ held => (RowStore.holder_rollback.mp held).2 rfl

omit [DecidableEq κ] [DecidableEq υ] in
theorem Inv.start : (start : Organization κ υ ι).Inv where
  one := .start
  within := fun _ _ => ⟨rfl, rfl⟩
  owner := by simp [Organization.start]
  idle := by simp [Organization.start, RowStore.start]
  calls := by simp [Organization.start]

/-! ## Main results -/

/-- As long as roles are changed and members removed of rows that are not the owner's, an existing
organization has one owner. -/
theorem one_owner_of_sparesOwner (run : Reaches SparesOwner start o) (created : o.created) :
    ∃! id, o.Owns id := by
  have inv : o.Inv := run.invariant Inv
    (fun _ _ _ inv spares stepped => inv.step spares stepped) .start
  obtain ⟨id, owner⟩ := inv.owner created
  exact ⟨id, owner, fun other also => inv.one.rows other id also owner⟩

/-- The user `owner` creates an organization and adds the user `member`. -/
def createAndAddMember (i j : ι) (k l : κ) (owner member : υ) : List (Action κ υ ι) :=
  [.call i (.create owner), .insert i k, .advance i,
    .call j (.addMember (some member) .member), .insert j l, .advance j]

/-- The owner becomes an admin, and the member the owner. -/
def transferToMember (i : ι) (k l : κ) (member : υ) : List (Action κ υ ι) :=
  [.call i (.transferOwnership member), .advance i, .lock i k, .lock i l, .advance i, .advance i,
    .lock i k, .advance i, .advance i, .advance i]

/-- An organization whose owner has changed. -/
theorem one_owner_after_transfer : ∃ o : Organization (Fin 2) (Fin 2) (Fin 4),
    Reaches SparesOwner start o ∧ o.members.rows 1 = some ⟨1, .owner⟩ ∧ ∃! id, o.Owns id := by
  have ran : ((Schedule.run step SparesOwner (createAndAddMember 0 1 0 1 0 1 ++ transferToMember 3 0 1 1)
      (start : Organization (Fin 2) (Fin 2) (Fin 4))).map
      fun o => (o.created, o.members.rows 1)) = some (true, some ⟨1, .owner⟩) := by
    decide +kernel
  obtain ⟨o, ran, there⟩ := Option.map_eq_some_iff.mp ran
  obtain ⟨created, owner⟩ := Prod.ext_iff.mp there
  have run := Schedule.reaches_of_run ran
  exact ⟨o, run, owner, one_owner_of_sparesOwner run created⟩

/-- A member is to be removed. It becomes the owner, and then it is removed. -/
theorem owner_removed : ¬ ∀ o : Organization (Fin 2) (Fin 2) (Fin 4),
    Reaches Schedule.Any start o → o.created → ∃! id, o.Owns id := by
  intro one
  have ran : ((Schedule.run step Schedule.Any (createAndAddMember 0 1 0 1 0 1 ++
      [.call 2 (.removeMember 1), .advance 2] ++ transferToMember 3 0 1 1 ++ [.advance 2, .advance 2])
      (start : Organization (Fin 2) (Fin 2) (Fin 4))).map
      fun o => (o.created, decide (∃ id, (o.members.rows id).any isOwner))) =
        some (true, false) := by
    decide +kernel
  obtain ⟨o, ran, there⟩ := Option.map_eq_some_iff.mp ran
  obtain ⟨created, none⟩ := Prod.ext_iff.mp there
  obtain ⟨id, owner, -⟩ := one o (Schedule.reaches_of_run ran) created
  exact of_decide_eq_false none ⟨id, owner⟩

end Organization

end Finstack.Organizations
