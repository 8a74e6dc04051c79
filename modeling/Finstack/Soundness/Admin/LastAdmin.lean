import Mathlib.Data.Fintype.Basic
import Finstack.Model.Admin.Users

/-! # The last active admin

`assertNotLastAdmin` serialises the removals that it guards: the call that holds the advisory lock
has counted two active admins, and nobody else that is guarded takes one away before it commits.
But a call is only guarded if it has read an active admin. A user that was suspended when it was
read, and is an active admin again when it is written, is demoted without a look at the others.
-/

namespace Finstack.Admin

open Foundation

namespace Request

variable {κ : Type} {request : Request κ} {user : User}

/-- The change takes an active admin away. -/
def Removes (request : Request κ) (row : Option User) : Prop :=
  Platform.isActiveAdmin row ∧ ¬ Platform.isActiveAdmin (row.map request.update)

instance (row : Option User) : Decidable (request.Removes row) :=
  inferInstanceAs (Decidable (_ ∧ _))

/-- The guard runs if an active admin was read, and the change takes active admins away. -/
theorem removesAnAdmin_of_removes {row : Option User} (removes : request.Removes row)
    (read : Platform.isActiveAdmin (some user)) : request.removesAnAdmin user := by
  obtain ⟨active, ended⟩ := removes
  obtain rfl : row = some ⟨.admin, .active⟩ := by simpa [Platform.isActiveAdmin] using active
  obtain rfl : user = ⟨.admin, .active⟩ := by simpa [Platform.isActiveAdmin] using read
  cases request with
  | setUserStatus actor userId status =>
    cases status with
    | active => simp [Platform.isActiveAdmin, update] at ended
    | suspended => rfl
  | setUserRole adminId userId role => rfl

end Request

/-- A write that takes an active admin away comes from a call that has read an active admin. -/
def Pc.Noticed {κ : Type} (users : κ → Option User) : Pc κ → Prop
  | .update request user =>
    request.Removes (users request.userId) → Platform.isActiveAdmin (some user)
  | _ => True

instance {κ : Type} (users : κ → Option User) : ∀ pc : Pc κ, Decidable (pc.Noticed users)
  | .update _ _ => inferInstanceAs (Decidable (_ → _))
  | .getUser _ | .lockAdmins _ _ | .countActiveAdmins _ _ | .commit _ _ | .respond _
  | .returned _ | .threw _ | .crashed => .isTrue trivial

namespace Platform

variable {κ ι : Type} [DecidableEq κ] [DecidableEq ι] {p q : Platform κ ι} {i j : ι}
  {request : Request κ} {user : User} {pc : Pc κ}

/-- The next statement of a call is `Noticed`. -/
def Noticed : Action κ ι → Platform κ ι → Prop
  | .advance i, p => ∀ pc ∈ p.calls i, pc.Noticed p.users.rows
  | _, _ => True

instance : ∀ (action : Action κ ι) (p : Platform κ ι), Decidable (Noticed action p)
  | .advance i, p => inferInstanceAs (Decidable (∀ pc ∈ p.calls i, pc.Noticed p.users.rows))
  | .call _ _, _ | .crash _, _ => .isTrue trivial

/-- The call may take an active admin away: it has the advisory lock, and there are two. -/
def Secured (p : Platform κ ι) (i : ι) : Prop :=
  p.admins = some i ∧ ∃ a b, a ≠ b ∧ isActiveAdmin (p.users.rows a) ∧ isActiveAdmin (p.users.rows b)

/-- What holds of each call. -/
structure CallInv (p : Platform κ ι) (i : ι) : Prop where
  held : ∀ id, p.users.holder id = some i →
    ∃ request user, p.calls i = some (.commit request user) ∧ request.userId = id
  counting : ∀ request user, p.calls i = some (.countActiveAdmins request user) → p.admins = some i
  update : ∀ request user, p.calls i = some (.update request user) →
    request.removesAnAdmin user → p.Secured i
  locked : ∀ request user, p.calls i = some (.commit request user) →
    p.users.holder request.userId = some i
  drafted : ∀ request user, p.calls i = some (.commit request user) →
    p.users.view i request.userId = (p.users.rows request.userId).map request.update
  commit : ∀ request user, p.calls i = some (.commit request user) →
    request.Removes (p.users.rows request.userId) → p.Secured i

structure Inv (p : Platform κ ι) : Prop where
  remains : p.HasActiveAdmin
  calls : ∀ i, p.CallInv i

/-! ## What a step leaves of the others -/

omit [DecidableEq κ] in
/-- A step of one call leaves the others what they know, if it leaves them the rows that they have
locked, the advisory lock, and two active admins. -/
theorem CallInv.frame (inv : p.CallInv j) (calls : q.calls j = p.calls j)
    (holder : ∀ id, q.users.holder id = some j ↔ p.users.holder id = some j)
    (rows : ∀ id, p.users.holder id = some j → q.users.rows id = p.users.rows id)
    (view : ∀ id, p.users.holder id = some j → q.users.view j id = p.users.view j id)
    (admins : p.admins = some j → q.admins = some j)
    (secured : p.Secured j → q.Secured j) : q.CallInv j where
  held id mine := by
    rw [calls]
    exact inv.held id ((holder id).mp mine)
  counting request user here := admins (inv.counting request user (calls ▸ here))
  update request user here removes := secured (inv.update request user (calls ▸ here) removes)
  locked request user here := (holder _).mpr (inv.locked request user (calls ▸ here))
  drafted request user here := by
    have mine := inv.locked request user (calls ▸ here)
    rw [view _ mine, rows _ mine]
    exact inv.drafted request user (calls ▸ here)
  commit request user here removes := by
    rw [rows _ (inv.locked request user (calls ▸ here))] at removes
    exact secured (inv.commit request user (calls ▸ here) removes)

omit [DecidableEq κ] in
/-- A call that holds no row and is not about to write without being secured. -/
theorem CallInv.of_idle (here : p.calls i = some pc) (free : ∀ id, p.users.holder id ≠ some i)
    (commit : ∀ request user, pc ≠ .commit request user)
    (counting : ∀ request user, pc = .countActiveAdmins request user → p.admins = some i)
    (update : ∀ request user, pc = .update request user → request.removesAnAdmin user →
      p.Secured i) : p.CallInv i where
  held id mine := (free id mine).elim
  counting request user at' := counting request user (Option.some.inj (here.symm.trans at'))
  update request user at' := update request user (Option.some.inj (here.symm.trans at'))
  locked request user at' := (commit request user (Option.some.inj (here.symm.trans at'))).elim
  drafted request user at' := (commit request user (Option.some.inj (here.symm.trans at'))).elim
  commit request user at' := (commit request user (Option.some.inj (here.symm.trans at'))).elim

omit [DecidableEq κ] in
@[simp] theorem calls_goto : (p.goto i pc).calls i = some pc := Function.update_self ..

omit [DecidableEq κ] in
theorem calls_goto_ne (other : j ≠ i) : (p.goto i pc).calls j = p.calls j :=
  Function.update_of_ne other ..

omit [DecidableEq κ] in
theorem unlock_ne (other : j ≠ i) {admins : Option ι} (theirs : admins = some j) :
    unlock i admins = some j := by
  simp [unlock, theirs, other]

omit [DecidableEq κ] in
/-- A call that is not in its write goes on and leaves the rows alone. -/
theorem Inv.goto (inv : p.Inv) (free : ∀ id, p.users.holder id ≠ some i)
    (commit : ∀ request user, pc ≠ .commit request user)
    (counting : ∀ request user, pc = .countActiveAdmins request user → p.admins = some i)
    (update : ∀ request user, pc = .update request user → request.removesAnAdmin user →
      p.Secured i) : (p.goto i pc).Inv where
  remains := inv.remains
  calls j := by
    rcases eq_or_ne j i with rfl | other
    · exact .of_idle calls_goto free commit counting update
    · exact (inv.calls j).frame (calls_goto_ne other) (fun _ => Iff.rfl) (fun _ _ => rfl)
        (fun _ _ => rfl) id id

omit [DecidableEq κ] in
/-- A transaction that is rolled back. -/
theorem Inv.rollback (inv : p.Inv) (commit : ∀ request user, pc ≠ .commit request user)
    (counting : ∀ request user, pc ≠ .countActiveAdmins request user)
    (update : ∀ request user, pc ≠ .update request user) : ((p.rollback i).goto i pc).Inv where
  remains := inv.remains
  calls j := by
    rcases eq_or_ne j i with rfl | other
    · apply CallInv.of_idle calls_goto
      · exact fun id mine => (RowStore.holder_rollback.mp mine).2 rfl
      · exact commit
      · exact fun request user at' => (counting request user at').elim
      · exact fun request user at' => (update request user at').elim
    · apply CallInv.frame (inv.calls j)
      · exact calls_goto_ne other
      · exact fun id => RowStore.holder_rollback.trans (and_iff_left other)
      · exact fun _ _ => rfl
      · exact fun id _ => congrFun (RowStore.view_rollback other) id
      · exact unlock_ne other
      · exact fun secured => ⟨unlock_ne other secured.1, secured.2⟩

omit [DecidableEq κ] in
/-- A call at another statement than `commit` has locked no row. -/
theorem Inv.free (inv : p.Inv) (here : p.calls i = some pc)
    (other : ∀ request user, pc ≠ .commit request user) (id : κ) :
    p.users.holder id ≠ some i := by
  intro mine
  obtain ⟨request, user, here', -⟩ := (inv.calls i).held id mine
  exact other request user (Option.some.inj (here.symm.trans here'))

/-! ## One step -/

omit [DecidableEq κ] in
/-- The advisory lock is free. -/
theorem Inv.lockAdmins (inv : p.Inv) (here : p.calls i = some (.lockAdmins request user))
    (free : p.admins = none ∨ p.admins = some i) :
    Inv { p.goto i (.countActiveAdmins request user) with admins := some i } where
  remains := inv.remains
  calls j := by
    rcases eq_or_ne j i with rfl | other
    · apply CallInv.of_idle
      · exact calls_goto (p := p)
      · exact inv.free here (by simp)
      · simp
      · simp
      · simp
    · have theirs : p.admins ≠ some j := by
        intro theirs
        rcases free with none | mine
        · simp [none] at theirs
        · exact other (Option.some.inj (theirs.symm.trans mine))
      apply CallInv.frame (inv.calls j)
      · exact calls_goto_ne other
      · exact fun _ => Iff.rfl
      · exact fun _ _ => rfl
      · exact fun _ _ => rfl
      · exact fun admins => (theirs admins).elim
      · exact fun secured => (theirs secured.1).elim

omit [DecidableEq κ] in
/-- A count of two, while nobody else removes an admin. -/
theorem Inv.secured (inv : p.Inv) (here : p.calls i = some (.countActiveAdmins request user))
    (two : ¬ p.countActiveAdmins i ≤ 1) : p.Secured i := by
  have view : ∀ id, p.users.view i id = p.users.rows id := fun id =>
    RowStore.view_of_not_held (inv.free here (by simp) id)
  obtain ⟨a, first, b, second, different⟩ := Finset.one_lt_card.mp (not_le.mp two)
  rw [Finset.mem_filter, view] at first second
  exact ⟨(inv.calls i).counting request user here, a, b, different, first.2, second.2⟩

/-- The write keeps the row's lock, and takes an active admin away only under the guard. -/
theorem Inv.update (inv : p.Inv) (here : p.calls i = some (.update request user))
    (free : p.users.Free i request.userId)
    (noticed : request.Removes (p.users.rows request.userId) → isActiveAdmin (some user)) :
    Inv { p.goto i (.commit request user) with
      users := p.users.write i request.userId
        ((p.users.view i request.userId).map request.update) } where
  remains := by
    obtain ⟨id, active⟩ := inv.remains
    exact ⟨id, active⟩
  calls j := by
    have unheld := inv.free here (by simp) request.userId
    rcases eq_or_ne j i with rfl | other
    · have only : ∀ request' user', some (Pc.commit request user) = some (.commit request' user') →
          request' = request := by
        rintro _ _ ⟨⟩
        rfl
      constructor
      · intro id mine
        rcases eq_or_ne id request.userId with rfl | different
        · exact ⟨request, user, calls_goto, rfl⟩
        · rw [RowStore.holder_write_ne different] at mine
          exact (inv.free here (by simp) id mine).elim
      · simp
      · simp
      · intro request' user' at'
        obtain rfl := only request' user' (calls_goto.symm.trans at')
        exact RowStore.holder_write_self
      · intro request' user' at'
        obtain rfl := only request' user' (calls_goto.symm.trans at')
        simp [RowStore.view_of_not_held unheld]
      · intro request' user' at' removes
        obtain rfl := only request' user' (calls_goto.symm.trans at')
        exact (inv.calls j).update request' user here
          (Request.removesAnAdmin_of_removes removes (noticed removes))
    · have theirs : ∀ id, p.users.holder id = some j → id ≠ request.userId := by
        rintro id held rfl
        exact other (free.ne held)
      apply CallInv.frame (inv.calls j)
      · exact calls_goto_ne other
      · intro id
        rcases eq_or_ne id request.userId with rfl | different
        · rw [RowStore.holder_write_self]
          exact ⟨fun mine => (other (Option.some.inj mine).symm).elim,
            fun held => (theirs _ held rfl).elim⟩
        · rw [RowStore.holder_write_ne different]
      · exact fun _ _ => rfl
      · exact fun id _ => congrFun (RowStore.view_write_other other free) id
      · exact id
      · exact id

/-- Whoever else is secured, an unguarded or guarded commit leaves two active admins. -/
theorem Inv.commit (inv : p.Inv) (here : p.calls i = some (.commit request user)) :
    ((p.commit i).goto i (.respond request)).Inv := by
  have mine := (inv.calls i).locked request user here
  have written : ∀ id, (p.commit i).users.rows id =
      if id = request.userId then (p.users.rows id).map request.update else p.users.rows id := by
    intro id
    split_ifs with same
    · subst same
      exact (inv.calls i).drafted request user here
    · apply RowStore.view_of_not_held
      intro held
      obtain ⟨request', user', here', rfl⟩ := (inv.calls i).held id held
      rw [here] at here'
      cases here'
      exact same rfl
  have kept : ∀ id, isActiveAdmin (p.users.rows id) →
      ¬ (id = request.userId ∧ request.Removes (p.users.rows id)) →
      isActiveAdmin ((p.commit i).users.rows id) := by
    intro id active stays
    rw [written id]
    split_ifs with same
    · by_contra ended
      exact stays ⟨same, active, ended⟩
    · exact active
  constructor
  · by_cases removes : request.Removes (p.users.rows request.userId)
    · obtain ⟨-, a, b, different, first, second⟩ := (inv.calls i).commit request user here removes
      by_cases same : a = request.userId
      · exact ⟨b, kept b second fun gone => different (same.trans gone.1.symm)⟩
      · exact ⟨a, kept a first fun gone => same gone.1⟩
    · obtain ⟨id, active⟩ := inv.remains
      exact ⟨id, kept id active fun gone => removes (gone.1 ▸ gone.2)⟩
  · intro j
    rcases eq_or_ne j i with rfl | other
    · apply CallInv.of_idle calls_goto
      · exact fun id held => (RowStore.holder_commit.mp held).2 rfl
      · simp
      · simp
      · simp
    · have theirs : ∀ id, p.users.holder id = some j → id ≠ request.userId := by
        rintro id held rfl
        exact other (Option.some.inj (held.symm.trans mine))
      apply CallInv.frame (inv.calls j)
      · exact calls_goto_ne other
      · exact fun id => RowStore.holder_commit.trans (and_iff_left other)
      · exact fun id held => (written id).trans (if_neg (theirs id held))
      · exact fun id held => (RowStore.view_commit other id).trans (if_pos held)
      · exact unlock_ne other
      · rintro ⟨lock, a, b, different, first, second⟩
        have stays : ¬ request.Removes (p.users.rows request.userId) := fun removes =>
          other (Option.some.inj
            (lock.symm.trans ((inv.calls i).commit request user here removes).1))
        exact ⟨unlock_ne other lock, a, b, different,
          kept a first fun gone => stays (gone.1 ▸ gone.2),
          kept b second fun gone => stays (gone.1 ▸ gone.2)⟩

omit [DecidableEq κ] in
/-- A user that passes the checks is changed under the guard or without it. -/
theorem checked_cases (request : Request κ) (user : User) :
    (∃ exception, checked request user = .threw exception) ∨
    checked request user = .lockAdmins request user ∨
    ¬ request.removesAnAdmin user ∧ checked request user = .update request user := by
  unfold checked
  split
  · exact .inl ⟨_, rfl⟩
  · split_ifs with removes
    · exact .inr (.inl rfl)
    · exact .inr (.inr ⟨removes, rfl⟩)

omit [DecidableEq κ] in
theorem Inv.getUser (inv : p.Inv) (here : p.calls i = some (.getUser request)) :
    (p.goto i (checked request user)).Inv := by
  have free := inv.free here (by simp)
  rcases checked_cases request user with ⟨exception, next⟩ | next | ⟨unguarded, next⟩ <;> rw [next]
  · exact inv.goto free (by simp) (by simp) (by simp)
  · exact inv.goto free (by simp) (by simp) (by simp)
  · apply inv.goto free (by simp) (by simp)
    rintro _ _ ⟨⟩ removes
    exact (unguarded removes).elim

theorem Inv.advance (inv : p.Inv) (here : p.calls i = some pc)
    (noticed : pc.Noticed p.users.rows) (advances : p.advance i pc = some q) : q.Inv := by
  cases pc with
  | getUser request =>
    simp only [Platform.advance] at advances
    split at advances <;> cases advances
    · exact inv.goto (inv.free here (by simp)) (by simp) (by simp) (by simp)
    · exact inv.getUser here
  | lockAdmins request user =>
    simp only [Platform.advance] at advances
    split_ifs at advances with free
    cases advances
    exact inv.lockAdmins here free
  | countActiveAdmins request user =>
    simp only [Platform.advance] at advances
    split_ifs at advances with last <;> cases advances
    · exact inv.rollback (by simp) (by simp) (by simp)
    · apply inv.goto (inv.free here (by simp)) (by simp) (by simp)
      exact fun _ _ _ _ => inv.secured here last
  | update request user =>
    simp only [Platform.advance] at advances
    split_ifs at advances with free
    cases advances
    exact inv.update here free noticed
  | commit request user =>
    cases advances
    exact inv.commit here
  | respond request =>
    simp only [Platform.advance] at advances
    have free := inv.free here (by simp)
    split at advances <;> cases advances <;> exact inv.goto free (by simp) (by simp) (by simp)
  | returned user => cases advances
  | threw exception => cases advances
  | crashed => cases advances

theorem Inv.step {action : Action κ ι} (inv : p.Inv) (noticed : Noticed action p)
    (stepped : step action p = some q) : q.Inv := by
  cases action with
  | call i request =>
    simp only [Platform.step] at stepped
    split_ifs at stepped with may
    have free : ∀ id, p.users.holder id ≠ some i := by
      intro id held
      obtain ⟨request, user, here, -⟩ := (inv.calls i).held id held
      rw [may.1] at here
      cases here
    split at stepped <;> cases stepped <;> exact inv.goto free (by simp) (by simp) (by simp)
  | advance i =>
    obtain ⟨pc, here, advances⟩ := Option.bind_eq_some_iff.mp stepped
    exact inv.advance here (noticed pc here) advances
  | crash i =>
    obtain ⟨pc, here, rfl⟩ := Option.map_eq_some_iff.mp stepped
    exact inv.rollback (by simp) (by simp) (by simp)

theorem Inv.start {ids : Finset κ} {user : κ → User}
    (holds : (start ids user : Platform κ ι).HasActiveAdmin) :
    (start ids user : Platform κ ι).Inv where
  remains := holds
  calls i := by constructor <;> simp [Platform.start, RowStore.start]

/-! ## Main results -/

/-- As long as calls that take an active admin away have read an active admin, one remains. -/
theorem admin_remains_of_noticed {ids : Finset κ} {user : κ → User}
    (holds : (start ids user : Platform κ ι).HasActiveAdmin)
    (run : Reaches Noticed (start ids user) p) : p.HasActiveAdmin :=
  (run.invariant Inv (fun _ _ _ inv noticed stepped => inv.step noticed stepped)
    (.start holds)).remains

/-- Two admins, and one of them demotes the other. -/
theorem admin_remains_after_demotion : ∃ p : Platform (Fin 2) (Fin 3),
    Reaches Noticed (start Finset.univ fun _ => ⟨.admin, .active⟩) p ∧
      p.users.rows 1 = some ⟨.user, .active⟩ ∧ p.HasActiveAdmin := by
  have ran : ((Schedule.run step Noticed
      [.call 0 (.setUserRole 0 1 .user), .advance 0, .advance 0, .advance 0, .advance 0, .advance 0]
      (start Finset.univ fun _ => ⟨.admin, .active⟩ : Platform (Fin 2) (Fin 3))).map
      fun p => p.users.rows 1) = some (some ⟨.user, .active⟩) := by
    decide +kernel
  obtain ⟨p, ran, demoted⟩ := Option.map_eq_some_iff.mp ran
  have run := Schedule.reaches_of_run ran
  exact ⟨p, run, demoted, admin_remains_of_noticed ⟨0, rfl⟩ run⟩

/-- An admin demotes a suspended admin, and reactivates it before that is written. The reactivated
one demotes the other, and then the first demotion is written without a look at who is left. -/
theorem admins_all_demoted : ¬ ∀ p : Platform (Fin 2) (Fin 3),
    (start Finset.univ fun id => ⟨.admin, if id = 0 then .active else .suspended⟩ :
      Platform (Fin 2) (Fin 3)).HasActiveAdmin →
      Reaches Schedule.Any
        (start Finset.univ fun id => ⟨.admin, if id = 0 then .active else .suspended⟩) p →
        p.HasActiveAdmin := by
  intro remains
  have ran : ((Schedule.run step Schedule.Any
      [.call 0 (.setUserRole 0 1 .user), .advance 0,
        .call 1 (.setUserStatus ⟨0, .admin⟩ 1 .active), .advance 1, .advance 1, .advance 1,
        .call 2 (.setUserRole 1 0 .user), .advance 2, .advance 2, .advance 2, .advance 2, .advance 2,
        .advance 0, .advance 0]
      (start Finset.univ fun id => ⟨.admin, if id = 0 then .active else .suspended⟩ :
        Platform (Fin 2) (Fin 3))).map
      fun p => decide (∃ id, isActiveAdmin (p.users.rows id))) = some false := by
    decide +kernel
  obtain ⟨p, ran, ended⟩ := Option.map_eq_some_iff.mp ran
  exact of_decide_eq_false ended (remains p ⟨0, rfl⟩ (Schedule.reaches_of_run ran))

end Platform

end Finstack.Admin
