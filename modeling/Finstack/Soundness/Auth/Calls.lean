import Finstack.Model.Auth.RefreshTokens

/-! # What the calls do to tokens

What each call knows of the rows that it has locked, and from it what a step can do to the committed
tokens: revoke and delete some, rotate one that is unrevoked and locked, or begin a family.
-/

namespace Finstack.RefreshTokens

open Foundation

variable {κ φ υ ι : Type} [DecidableEq κ] [DecidableEq ι]
  {s s' : Sessions κ φ υ ι} {i j : ι} {token next l : κ} {current row a b : RefreshToken κ φ υ}
  {call : Call κ φ υ} {pc : Pc κ φ υ}

/-! ## What happens to a row -/

/-- A row stays, is revoked or is deleted. -/
def Evolves (old new : Option (RefreshToken κ φ υ)) : Prop :=
  ∀ b, new = some b → ∃ a, old = some a ∧ b.familyId = a.familyId ∧ b.userId = a.userId ∧
    b.expiresAt = a.expiresAt ∧
    (b = a ∨ a.revokedAt = none ∧ b.revokedAt.isSome ∧ b.replacedById = a.replacedById)

omit [DecidableEq κ] in
theorem Evolves.refl (old : Option (RefreshToken κ φ υ)) : Evolves old old :=
  fun b there => ⟨b, there, rfl, rfl, rfl, .inl rfl⟩

/-- A row that has been rotated. -/
structure Replaced (current : RefreshToken κ φ υ) (next : κ) (row : RefreshToken κ φ υ) : Prop where
  familyId : row.familyId = current.familyId
  userId : row.userId = current.userId
  revokedAt : row.revokedAt.isSome
  replacedById : row.replacedById = some next

/-- A row that has been inserted. -/
structure Issued (userId : υ) (familyId : φ) (row : RefreshToken κ φ υ) : Prop where
  userId : row.userId = userId
  familyId : row.familyId = familyId
  revokedAt : row.revokedAt = none
  replacedById : row.replacedById = none

/-- What a step can do to the committed tokens. -/
inductive Change (s s' : Sessions κ φ υ ι) : Prop
  | evolved (rows : ∀ l, Evolves (s.tokens.rows l) (s'.tokens.rows l))
      (rotations : s'.rotations = s.rotations)
  | rotated {i : ι} {token next : κ} {expiresAt : Nat} {current replaced row : RefreshToken κ φ υ}
      (here : s.calls i = some ⟨.rotate token,
        .commit (.rotated next expiresAt current.userId current.familyId)⟩)
      (locked : s.tokens.holder token = some i)
      (there : s.tokens.rows token = some current) (unrevoked : current.revokedAt = none)
      (vacant : s.tokens.rows next = none)
      (new : ∀ r ∈ s.rotations, r.token ≠ next ∧ r.next ≠ next)
      (replaces : Replaced current next replaced) (issues : Issued current.userId current.familyId row)
      (rows : s'.tokens.rows =
        Function.update (Function.update s.tokens.rows token (some replaced)) next (some row))
      (rotations : s'.rotations =
        ⟨i, token, next, current.userId, current.familyId⟩ :: s.rotations)
  | issued {i : ι} {userId : υ} {token : κ} {expiresAt : Nat} {row : RefreshToken κ φ υ}
      (here : s.calls i = some ⟨.issue userId, .commit (.issued token expiresAt)⟩)
      (seen : s.tokens.view i token = some row) (vacant : s.tokens.rows token = none)
      (new : ∀ r ∈ s.rotations, r.token ≠ token ∧ r.next ≠ token)
      (issues : Issued row.userId row.familyId row)
      (fresh : ∀ l a, s.tokens.rows l = some a → a.familyId ≠ row.familyId)
      (rows : s'.tokens.rows = Function.update s.tokens.rows token (some row))
      (rotations : s'.rotations = s.rotations)

/-! ## What a call knows -/

/-- The call has inserted this row, and nobody has heard of it. -/
structure Inserted (tokens : RowStore κ (RefreshToken κ φ υ) ι) (rotations : List (Rotation κ φ υ ι))
    (i : ι) (token : κ) (row : RefreshToken κ φ υ) : Prop where
  locked : tokens.holder token = some i
  vacant : tokens.rows token = none
  view : tokens.view i token = some row
  new : ∀ r ∈ rotations, r.token ≠ token ∧ r.next ≠ token

/-- The call has locked an unrevoked row. -/
structure Locked (tokens : RowStore κ (RefreshToken κ φ υ) ι) (i : ι) (token : κ)
    (current : RefreshToken κ φ υ) : Prop where
  locked : tokens.holder token = some i
  row : tokens.rows token = some current
  unrevoked : current.revokedAt = none

/-- What is returned by a call that only revokes or deletes. -/
def Result.Plain : Result κ φ υ → Prop
  | .issued _ _ | .rotated _ _ _ _ => False
  | _ => True

/-- What a call knows of the rows that it has locked. -/
def Pc.Holds (s : Sessions κ φ υ ι) (i : ι) (request : Request κ φ υ) : Pc κ φ υ → Prop
  | .insertNext current => ∃ token, request = .rotate token ∧ Locked s.tokens i token current ∧
      s.tokens.view i token = some current ∧ ∀ l, s.tokens.holder l = some i → l = token
  | .replaceCurrent current next _ => ∃ token row, request = .rotate token ∧
      Locked s.tokens i token current ∧ s.tokens.view i token = some current ∧
        Inserted s.tokens s.rotations i next row ∧
      Issued current.userId current.familyId row ∧
      ∀ l, s.tokens.holder l = some i → l = token ∨ l = next
  | .commit (.rotated next _ userId familyId) => ∃ token current replaced row,
      request = .rotate token ∧ Locked s.tokens i token current ∧
      s.tokens.view i token = some replaced ∧ Replaced current next replaced ∧
      Inserted s.tokens s.rotations i next row ∧ Issued current.userId current.familyId row ∧
      userId = current.userId ∧ familyId = current.familyId ∧
      ∀ l, s.tokens.holder l = some i → l = token ∨ l = next
  | .commit (.issued token _) => ∃ row userId, request = .issue userId ∧
      Inserted s.tokens s.rotations i token row ∧
      Issued row.userId row.familyId row ∧ row.familyId ∈ s.families ∧
      (∀ l a, s.tokens.Shows l a → a.familyId = row.familyId → s.tokens.holder l = some i) ∧
      ∀ l, s.tokens.holder l = some i → l = token
  | .update _ result | .updating _ _ _ result => result.Plain ∧
      ∀ l, s.tokens.holder l = some i → Evolves (s.tokens.rows l) (s.tokens.view i l)
  | .commit _ | .deleting _ _ _ =>
      ∀ l, s.tokens.holder l = some i → Evolves (s.tokens.rows l) (s.tokens.view i l)
  | _ => ∀ l, s.tokens.holder l ≠ some i

structure CallsInv (s : Sessions κ φ υ ι) : Prop where
  within : s.tokens.Within s.ids
  families : ∀ l a, s.tokens.Shows l a → a.familyId ∈ s.families
  rotations : ∀ r ∈ s.rotations, r.token ∈ s.ids ∧ r.next ∈ s.ids
  idle : ∀ i, s.calls i = none → ∀ l, s.tokens.holder l ≠ some i
  calls : ∀ i call, s.calls i = some call → call.pc.Holds s i call.request

/-- What a step of `i` leaves of the rest. -/
structure Frame (s s' : Sessions κ φ υ ι) (i : ι) : Prop where
  keeps : ∀ j, j ≠ i → s.tokens.Keeps s'.tokens j
  /-- Every version is of a family that is new, or that the step could see. -/
  shows_ : ∀ l a, s'.tokens.Shows l a → s.tokens.Shows l a ∨ a.familyId ∉ s.families ∨
    ∃ l' a', s.tokens.Shows l' a' ∧ a'.familyId = a.familyId ∧ s.tokens.Free i l'
  families : s.families ⊆ s'.families
  rotations : ∀ r ∈ s'.rotations, r ∈ s.rotations ∨
    s.tokens.holder r.token = some i ∧ s.tokens.holder r.next = some i

omit [DecidableEq κ] in
theorem Inserted.frame (inserted : Inserted s.tokens s.rotations j token row) (frame : Frame s s' i)
    (other : j ≠ i) : Inserted s'.tokens s'.rotations j token row where
  locked := (frame.keeps j other token).1.mpr inserted.locked
  vacant := ((frame.keeps j other token).2 inserted.locked).1.trans inserted.vacant
  view := ((frame.keeps j other token).2 inserted.locked).2.trans inserted.view
  new r member := by
    rcases frame.rotations r member with old | ⟨first, second⟩
    · exact inserted.new r old
    · refine ⟨?_, ?_⟩
      · rintro same
        rw [same, inserted.locked] at first
        exact other (Option.some.inj first)
      · rintro same
        rw [same, inserted.locked] at second
        exact other (Option.some.inj second)

omit [DecidableEq κ] in
theorem Locked.frame (locked : Locked s.tokens j token current) (frame : Frame s s' i)
    (other : j ≠ i) : Locked s'.tokens j token current where
  locked := (frame.keeps j other token).1.mpr locked.locked
  row := ((frame.keeps j other token).2 locked.locked).1.trans locked.row
  unrevoked := locked.unrevoked

omit [DecidableEq κ] in
theorem Pc.Holds.frame {request : Request κ φ υ} (holds : pc.Holds s j request)
    (frame : Frame s s' i) (other : j ≠ i) : pc.Holds s' j request := by
  have held : ∀ l, s'.tokens.holder l = some j → s.tokens.holder l = some j :=
    fun l => (frame.keeps j other l).1.mp
  have view : ∀ l, s.tokens.holder l = some j → s'.tokens.view j l = s.tokens.view j l :=
    fun l mine => ((frame.keeps j other l).2 mine).2
  have evolves : (∀ l, s.tokens.holder l = some j →
      Evolves (s.tokens.rows l) (s.tokens.view j l)) → ∀ l, s'.tokens.holder l = some j →
        Evolves (s'.tokens.rows l) (s'.tokens.view j l) := by
    intro evolves l mine
    rw [((frame.keeps j other l).2 (held l mine)).1, view l (held l mine)]
    exact evolves l (held l mine)
  cases pc with
  | insertNext current =>
    obtain ⟨token, request, locked, row, only⟩ := holds
    exact ⟨token, request, locked.frame frame other, (view token locked.locked).trans row,
      fun l mine => only l (held l mine)⟩
  | replaceCurrent current next expiresAt =>
    obtain ⟨token, row, request, locked, seen, inserted, issues, only⟩ := holds
    exact ⟨token, row, request, locked.frame frame other, (view token locked.locked).trans seen,
      inserted.frame frame other, issues, fun l mine => only l (held l mine)⟩
  | update scope result => exact ⟨holds.1, evolves holds.2⟩
  | updating scope revokedAt remaining result => exact ⟨holds.1, evolves holds.2⟩
  | deleting before remaining affected => exact evolves holds
  | commit result =>
    cases result with
    | issued token expiresAt =>
      obtain ⟨row, userId, request, inserted, issues, known, own, only⟩ := holds
      refine ⟨row, userId, request, inserted.frame frame other, issues, frame.families known, ?_,
        fun l mine => only l (held l mine)⟩
      intro l a shows_ same
      rcases frame.shows_ l a shows_ with old | fresh | ⟨l', a', old, same', free⟩
      · exact (frame.keeps j other l).1.mpr (own l a old same)
      · exact (fresh (same ▸ known)).elim
      · exact (other (free.ne (own l' a' old (same'.trans same)))).elim
    | rotated next expiresAt userId familyId =>
      obtain ⟨token, current, replaced, row, request, locked, seen, replaces, inserted, issues,
        user, family, only⟩ := holds
      exact ⟨token, current, replaced, row, request, locked.frame frame other,
        (view token locked.locked).trans seen, replaces, inserted.frame frame other, issues, user,
        family, fun l mine => only l (held l mine)⟩
    | invalid => exact evolves holds
    | reused userId familyId => exact evolves holds
    | done => exact evolves holds
    | deleted affected => exact evolves holds
  | insert | lockCurrent | findRevoked | delete | returned | crashed =>
    exact fun l mine => holds l (held l mine)

omit [DecidableEq κ] in
/-- A step of `i`, if it leaves the others what they know. -/
theorem CallsInv.put (inv : CallsInv s) (frame : Frame s s' i)
    (calls : s'.calls = Function.update s.calls i (some call)) (within : s'.tokens.Within s'.ids)
    (families : ∀ l a, s'.tokens.Shows l a → a.familyId ∈ s'.families)
    (rotations : ∀ r ∈ s'.rotations, r.token ∈ s'.ids ∧ r.next ∈ s'.ids)
    (holds : call.pc.Holds s' i call.request) : CallsInv s' where
  within := within
  families := families
  rotations := rotations
  idle j new l mine := by
    rw [calls] at new
    rcases eq_or_ne j i with rfl | other
    · simp at new
    · rw [Function.update_of_ne other] at new
      exact inv.idle j new l ((frame.keeps j other l).1.mp mine)
  calls j call' here := by
    rw [calls] at here
    rcases eq_or_ne j i with rfl | other
    · obtain rfl : call = call' := by simpa using here
      exact holds
    · rw [Function.update_of_ne other] at here
      exact (inv.calls j call' here).frame frame other

/-! ## What a statement leaves of the others -/

omit [DecidableEq κ] in
theorem Frame.same (tokens : s'.tokens = s.tokens) (families : s'.families = s.families)
    (rotations : s'.rotations = s.rotations) : Frame s s' i where
  keeps j _ := by
    rw [tokens]
    exact .refl _ j
  shows_ l a shows_ := .inl (by rwa [tokens] at shows_)
  families := by rw [families]; exact List.Subset.refl _
  rotations r member := .inl (by rwa [rotations] at member)

theorem Frame.lock (free : s.tokens.Free i token) (tokens : s'.tokens = s.tokens.lock i token)
    (families : s'.families = s.families) (rotations : s'.rotations = s.rotations) :
    Frame s s' i where
  keeps j other := by
    rw [tokens]
    exact RowStore.keeps_lock other free
  shows_ l a shows_ := by
    rw [tokens] at shows_
    exact .inl (RowStore.shows_lock free shows_)
  families := by rw [families]; exact List.Subset.refl _
  rotations r member := .inl (by rwa [rotations] at member)

/-- A row is written, of a new family or of one that the call can see. -/
theorem Frame.write {new : Option (RefreshToken κ φ υ)} (free : s.tokens.Free i token)
    (tokens : s'.tokens = s.tokens.write i token new)
    (family : ∀ b, new = some b → b.familyId ∉ s.families ∨
      ∃ l' a', s.tokens.Shows l' a' ∧ a'.familyId = b.familyId ∧ s.tokens.Free i l')
    (families : s.families ⊆ s'.families) (rotations : s'.rotations = s.rotations) :
    Frame s s' i where
  keeps j other := by
    rw [tokens]
    exact RowStore.keeps_write other free
  shows_ l a shows_ := by
    rw [tokens] at shows_
    rcases RowStore.shows_write free shows_ with old | ⟨-, written⟩
    · exact .inl old
    · exact .inr (family a written)
  families := families
  rotations r member := .inl (by rwa [rotations] at member)

omit [DecidableEq κ] in
theorem Frame.commit (tokens : s'.tokens = s.tokens.commit i) (families : s'.families = s.families)
    (rotations : ∀ r ∈ s'.rotations, r ∈ s.rotations ∨
      s.tokens.holder r.token = some i ∧ s.tokens.holder r.next = some i) : Frame s s' i where
  keeps j other := by
    rw [tokens]
    exact RowStore.keeps_commit other
  shows_ l a shows_ := by
    rw [tokens] at shows_
    exact .inl (RowStore.shows_commit shows_)
  families := by rw [families]; exact List.Subset.refl _
  rotations := rotations

omit [DecidableEq κ] in
theorem Frame.rollback (tokens : s'.tokens = s.tokens.rollback i)
    (families : s'.families = s.families) (rotations : s'.rotations = s.rotations) :
    Frame s s' i where
  keeps j other := by
    rw [tokens]
    exact RowStore.keeps_rollback other
  shows_ l a shows_ := by
    rw [tokens] at shows_
    exact .inl (RowStore.shows_rollback shows_)
  families := by rw [families]; exact List.Subset.refl _
  rotations r member := .inl (by rwa [rotations] at member)

theorem Change.same (rows : s'.tokens.rows = s.tokens.rows)
    (rotations : s'.rotations = s.rotations) : Change s s' :=
  .evolved (fun l => by rw [rows]; exact .refl _) rotations

/-! ## The statements -/

omit [DecidableEq κ] in
/-- Only the tokens and what has become of them matter. -/
theorem Pc.Holds.same {request : Request κ φ υ} (holds : pc.Holds s i request)
    (tokens : s'.tokens = s.tokens) (families : s'.families = s.families)
    (rotations : s'.rotations = s.rotations) : pc.Holds s' i request := by
  cases s
  cases s'
  cases tokens
  cases families
  cases rotations
  cases pc with
  | commit result => cases result <;> exact holds
  | _ => exact holds

/-- A step that leaves the tokens alone. -/
theorem CallsInv.goto (inv : CallsInv s) (holds : pc.Holds s i call.request) :
    CallsInv (s.goto i call pc) ∧ Change s (s.goto i call pc) :=
  ⟨inv.put (.same rfl rfl rfl) rfl inv.within inv.families inv.rotations
    (holds.same rfl rfl rfl),
    .same rfl rfl⟩

omit [DecidableEq κ] in
/-- What a call that only revokes and deletes sees of any row. -/
theorem evolves_view (evolves : ∀ l, s.tokens.holder l = some i →
    Evolves (s.tokens.rows l) (s.tokens.view i l)) (l : κ) :
    Evolves (s.tokens.rows l) (s.tokens.view i l) := by
  by_cases mine : s.tokens.holder l = some i
  · exact evolves l mine
  · rw [RowStore.view_of_not_held mine]
    exact .refl _

omit [DecidableEq κ] in
/-- Revoking what is unrevoked is still to revoke. -/
theorem Evolves.revoke {old : Option (RefreshToken κ φ υ)} (evolves : Evolves old (some a))
    (unrevoked : a.revokedAt = none) (revokedAt : Nat) :
    Evolves old (some { a with revokedAt := some revokedAt }) := by
  obtain ⟨c, there, family, user, expires, rfl | ⟨-, revoked, -⟩⟩ := evolves a rfl
  · rintro _ ⟨⟩
    exact ⟨a, there, rfl, rfl, rfl, .inr ⟨unrevoked, rfl, rfl⟩⟩
  · rw [unrevoked] at revoked
    cases revoked

/-- One row of an `UPDATE` or a `DELETE` of many. -/
theorem CallsInv.write (inv : CallsInv s) {new : Option (RefreshToken κ φ υ)}
    (free : s.tokens.Free i token)
    (evolves : ∀ l, s.tokens.holder l = some i → Evolves (s.tokens.rows l) (s.tokens.view i l))
    (seen : s.tokens.view i token = some row) (written : Evolves (s.tokens.rows token) new)
    (family : ∀ b, new = some b → b.familyId = row.familyId)
    (holds : (∀ l, (s.tokens.write i token new).holder l = some i →
      Evolves (s.tokens.rows l) ((s.tokens.write i token new).view i l)) →
        pc.Holds ((s.write i token new).goto i call pc) i call.request) :
    CallsInv ((s.write i token new).goto i call pc) ∧
      Change s ((s.write i token new).goto i call pc) := by
  have shown := RowStore.shows_of_view seen
  refine ⟨inv.put (.write free rfl ?_ (List.Subset.refl _) rfl) rfl
    (inv.within.write (inv.within.of_view (i := i) (by rw [seen]; rfl))) ?_ inv.rotations
    (holds ?_), .same rfl rfl⟩
  · exact fun b there => .inr ⟨token, row, shown, (family b there).symm, free⟩
  · intro l a shows_
    rcases RowStore.shows_write free shows_ with old | ⟨-, there⟩
    · exact inv.families l a old
    · rw [family a there]
      exact inv.families token row shown
  · intro l mine
    rcases eq_or_ne l token with rfl | other
    · rw [RowStore.view_write_self]
      exact written
    · rw [RowStore.view_write_ne other]
      exact evolves_view evolves l

theorem CallsInv.lockNext [DecidableEq φ] [DecidableEq υ] (inv : CallsInv s)
    (here : s.calls i = some call)
    (locks : s.lockNext i token call = some s') : CallsInv s' ∧ Change s s' := by
  have holds := inv.calls i call here
  unfold Sessions.lockNext at locks
  split at locks
  next scope revokedAt remaining result at_ =>
    rw [at_] at holds
    split_ifs at locks with may
    split at locks
    next => cases locks; exact inv.goto holds
    next row seen =>
      split_ifs at locks with revokes <;> cases locks
      · have unrevoked : row.revokedAt = none := by
          simpa using (Bool.and_eq_true_iff.mp revokes).2
        have old := evolves_view holds.2 token
        rw [seen] at old
        exact inv.write may.2 holds.2 seen (old.revoke unrevoked revokedAt)
          (by rintro _ ⟨⟩; rfl) fun evolves => ⟨holds.1, evolves⟩
      · exact inv.goto holds
  next before remaining affected at_ =>
    rw [at_] at holds
    split_ifs at locks with may
    split at locks
    next => cases locks; exact inv.goto holds
    next row seen =>
      split_ifs at locks with done <;> cases locks
      · exact inv.write may.2 holds seen (by rintro _ ⟨⟩) (by rintro _ ⟨⟩) fun evolves => evolves
      · exact inv.goto holds
  next => cases locks

/-- A new row, of a new family or of the family of the row that the call has locked. -/
theorem CallsInv.create (inv : CallsInv s) {ttl : Nat} {userId : υ} {familyId : φ}
    {families : List φ} (new : token ∉ s.ids) (subset : s.families ⊆ families)
    (known : familyId ∈ families)
    (family : familyId ∉ s.families ∨
      ∃ l a, s.tokens.Shows l a ∧ a.familyId = familyId ∧ s.tokens.Free i l)
    (holds : Inserted (s.tokens.write i token (some ⟨userId, familyId, s.now + ttl, none, none⟩))
      s.rotations i token ⟨userId, familyId, s.now + ttl, none, none⟩ →
        pc.Holds { s.create ttl i call token userId familyId pc with families } i call.request) :
    CallsInv { s.create ttl i call token userId familyId pc with families } ∧
      Change s { s.create ttl i call token userId familyId pc with families } := by
  obtain ⟨gone, unheld⟩ := inv.within token new
  have free : s.tokens.Free i token := .inl unheld
  have inserted : Inserted
      (s.tokens.write i token (some ⟨userId, familyId, s.now + ttl, none, none⟩)) s.rotations i
      token ⟨userId, familyId, s.now + ttl, none, none⟩ := by
    refine ⟨RowStore.holder_write_self, gone, RowStore.view_write_self, fun r member => ?_⟩
    obtain ⟨first, second⟩ := inv.rotations r member
    exact ⟨fun same => new (same ▸ first), fun same => new (same ▸ second)⟩
  refine ⟨inv.put (.write free rfl ?_ subset rfl) rfl (inv.within.cons.write List.mem_cons_self)
    ?_ ?_ (holds inserted), .same rfl rfl⟩
  · rintro _ ⟨⟩
    exact family
  · intro l a shows_
    rcases RowStore.shows_write free shows_ with old | ⟨-, there⟩
    · exact subset (inv.families l a old)
    · cases there
      exact known
  · intro r member
    obtain ⟨first, second⟩ := inv.rotations r member
    exact ⟨List.mem_cons_of_mem _ first, List.mem_cons_of_mem _ second⟩

theorem CallsInv.insertNext [DecidableEq φ] {ttl : Nat} {familyId : φ} (inv : CallsInv s)
    (here : s.calls i = some call) (inserts : s.insertNext ttl i token familyId call = some s') :
    CallsInv s' ∧ Change s s' := by
  have holds := inv.calls i call here
  unfold Sessions.insertNext at inserts
  split at inserts
  next userId request at_ =>
    rw [at_] at holds
    split_ifs at inserts with used
    obtain ⟨new, fresh⟩ := not_or.mp used
    cases inserts
    apply inv.create new (List.subset_cons_self _ _) List.mem_cons_self (.inl fresh)
    intro inserted
    refine ⟨_, userId, request, inserted, ⟨rfl, rfl, rfl, rfl⟩, List.mem_cons_self, ?_, ?_⟩
    · intro l a shows_ same
      rcases RowStore.shows_write (.inl (inv.within token new).2) shows_ with old | ⟨rfl, -⟩
      · have same : a.familyId = familyId := same
        exact (fresh (same ▸ inv.families l a old)).elim
      · exact RowStore.holder_write_self
    · intro l mine
      by_contra other
      have mine : (s.tokens.write i token _).holder l = some i := mine
      rw [RowStore.holder_write_ne other] at mine
      exact holds l mine
  next current at_ =>
    rw [at_] at holds
    split_ifs at inserts with used
    cases inserts
    obtain ⟨first, request, locked, row, only⟩ := holds
    have shown := RowStore.shows_of_view row
    have apart : first ≠ token := by
      rintro rfl
      exact used (inv.within.of_view (i := i) (by rw [row]; rfl))
    apply inv.create used (List.Subset.refl _) (inv.families first current shown)
      (.inr ⟨first, current, shown, rfl, .inr locked.locked⟩)
    intro inserted
    refine ⟨first, _, request, ⟨?_, locked.row, locked.unrevoked⟩, ?_, inserted,
      ⟨rfl, rfl, rfl, rfl⟩, fun l mine => ?_⟩
    · exact (RowStore.holder_write_ne apart).trans locked.locked
    · exact (RowStore.view_write_ne apart).trans row
    · rcases eq_or_ne l token with rfl | other
      · exact .inr rfl
      · have mine : (s.tokens.write i token _).holder l = some i := mine
        rw [RowStore.holder_write_ne other] at mine
        exact .inl (only l mine)
  next => cases inserts

/-- The row has been locked, and is as it was read. -/
theorem CallsInv.lockCurrent (inv : CallsInv s) (rotate : call.request = .rotate token)
    (unheld : ∀ l, s.tokens.holder l ≠ some i) (there : s.tokens.rows token = some current)
    (free : s.tokens.Free i token) :
    CallsInv { s.goto i call (checked s.now current) with tokens := s.tokens.lock i token } ∧
      Change s { s.goto i call (checked s.now current) with tokens := s.tokens.lock i token } := by
  have known : token ∈ s.ids :=
    inv.within.of_view (i := i) (by rw [RowStore.view_of_not_held (unheld token), there]; rfl)
  have only : ∀ l, (s.tokens.lock i token).holder l = some i → l = token := by
    intro l mine
    by_contra other
    rw [RowStore.holder_lock_ne other] at mine
    exact unheld l mine
  have evolves : ∀ l, (s.tokens.lock i token).holder l = some i →
      Evolves ((s.tokens.lock i token).rows l) ((s.tokens.lock i token).view i l) := by
    intro l mine
    rw [RowStore.view_lock, RowStore.rows_lock, RowStore.view_of_not_held (unheld l)]
    exact .refl _
  refine ⟨inv.put (.lock free rfl rfl rfl) rfl (inv.within.lock known) ?_ inv.rotations ?_,
    .same (RowStore.rows_lock) rfl⟩
  · exact fun l a shows_ => inv.families l a (RowStore.shows_lock free shows_)
  · unfold checked
    dsimp only
    split_ifs with ended rotated expired
    · exact evolves
    · exact ⟨trivial, evolves⟩
    · exact evolves
    · refine ⟨token, rotate, ⟨RowStore.holder_lock_self, ?_, by simpa using rotated⟩, ?_, only⟩
      · exact (congrFun RowStore.rows_lock token).trans there
      · exact (RowStore.view_lock_self (unheld token)).trans there

/-- The locked row is marked as replaced. -/
theorem CallsInv.replaceCurrent (inv : CallsInv s) {expiresAt : Nat}
    (here : s.calls i = some call) (at_ : call.pc = .replaceCurrent current next expiresAt)
    (rotate : call.request = .rotate token) (free : s.tokens.Free i token)
    (seen : s.tokens.view i token = some row) :
    CallsInv ((s.write i token
      (some { row with revokedAt := some s.now, replacedById := some next })).goto i call
        (.commit (.rotated next expiresAt current.userId current.familyId))) ∧
      Change s ((s.write i token
        (some { row with revokedAt := some s.now, replacedById := some next })).goto i call
          (.commit (.rotated next expiresAt current.userId current.familyId))) := by
  have holds := inv.calls i call here
  rw [at_] at holds
  obtain ⟨first, successor, request, locked, view, inserted, issues, only⟩ := holds
  obtain rfl : token = first := by
    rw [rotate] at request
    cases request
    rfl
  obtain rfl : current = row := Option.some.inj (view.symm.trans seen)
  have shown := RowStore.shows_of_view seen
  have apart : next ≠ token := by
    rintro rfl
    have row := locked.row
    rw [inserted.vacant] at row
    cases row
  refine ⟨inv.put (.write free rfl ?_ (List.Subset.refl _) rfl) rfl
    (inv.within.write (inv.within.of_view (i := i) (by rw [seen]; rfl))) ?_ inv.rotations ?_,
    .same rfl rfl⟩
  · rintro _ ⟨⟩
    exact .inr ⟨token, current, shown, rfl, free⟩
  · intro l a shows_
    rcases RowStore.shows_write free shows_ with old | ⟨-, there⟩
    · exact inv.families l a old
    · cases there
      exact inv.families token current shown
  · refine ⟨token, current, _, successor, rotate,
      ⟨RowStore.holder_write_self, locked.row, locked.unrevoked⟩, RowStore.view_write_self,
      ⟨rfl, rfl, rfl, rfl⟩, ⟨?_, inserted.vacant, ?_, inserted.new⟩, issues, rfl, rfl, ?_⟩
    · exact (RowStore.holder_write_ne apart).trans inserted.locked
    · exact (RowStore.view_write_ne apart).trans inserted.view
    · intro l mine
      rcases eq_or_ne l token with rfl | other
      · exact .inl rfl
      · have mine : (s.tokens.write i token _).holder l = some i := mine
        rw [RowStore.holder_write_ne other] at mine
        exact only l mine

/-- What a call has locked is all that its commit changes. -/
theorem rows_commit_of_only {x y : κ} {first second : Option (RefreshToken κ φ υ)} (apart : y ≠ x)
    (only : ∀ l, s.tokens.holder l = some i → l = x ∨ l = y)
    (atX : s.tokens.view i x = first) (atY : s.tokens.view i y = second) :
    (s.tokens.commit i).rows = Function.update (Function.update s.tokens.rows x first) y second := by
  funext l
  rw [RowStore.rows_commit]
  rcases eq_or_ne l y with rfl | second'
  · simpa using atY
  · rcases eq_or_ne l x with rfl | first'
    · simpa [second'] using atX
    · have unheld : s.tokens.holder l ≠ some i := fun mine =>
        (only l mine).elim first' second'
      simp [first', second', RowStore.view_of_not_held unheld]

theorem CallsInv.commit (inv : CallsInv s) {result : Result κ φ υ} (here : s.calls i = some call)
    (at_ : call.pc = .commit result) :
    CallsInv { s.goto i call (.returned result) with
      tokens := s.tokens.commit i
      rotations := Sessions.rotated i call.request result ++ s.rotations } ∧
    Change s { s.goto i call (.returned result) with
      tokens := s.tokens.commit i
      rotations := Sessions.rotated i call.request result ++ s.rotations } := by
  have holds := inv.calls i call here
  rw [at_] at holds
  obtain ⟨request, pc⟩ := call
  obtain rfl : pc = .commit result := at_
  have ended : ∀ l, (s.tokens.commit i).holder l ≠ some i :=
    fun l mine => (RowStore.holder_commit.mp mine).2 rfl
  -- a rotation is of two rows that the call has locked
  have rotations : ∀ r ∈ Sessions.rotated i request result ++ s.rotations,
      r ∈ s.rotations ∨ s.tokens.holder r.token = some i ∧ s.tokens.holder r.next = some i := by
    intro r member
    rcases List.mem_append.mp member with new | old
    · cases result with
      | rotated next expiresAt userId familyId =>
        obtain ⟨token, current, replaced, row, rfl, locked, -, -, inserted, -⟩ := holds
        obtain rfl := List.mem_singleton.mp new
        exact .inr ⟨locked.locked, inserted.locked⟩
      | _ => cases request <;> simp [Sessions.rotated] at new
    · exact .inl old
  have known : ∀ l, s.tokens.holder l = some i → l ∈ s.ids := by
    intro l mine
    by_contra outside
    rw [(inv.within l outside).2] at mine
    cases mine
  constructor
  · refine inv.put (.commit rfl rfl rotations) rfl inv.within.commit
      (fun l a shows_ => inv.families l a (RowStore.shows_commit shows_)) (fun r member => ?_) ended
    rcases rotations r member with old | ⟨first, second⟩
    · exact inv.rotations r old
    · exact ⟨known _ first, known _ second⟩
  · have plain : result.Plain → (∀ l, s.tokens.holder l = some i →
        Evolves (s.tokens.rows l) (s.tokens.view i l)) → Change s
          { s.goto i ⟨request, .commit result⟩ (.returned result) with
            tokens := s.tokens.commit i
            rotations := Sessions.rotated i request result ++ s.rotations } := by
      intro plain evolves
      refine .evolved (evolves_view evolves) ?_
      cases result <;> first | exact plain.elim | cases request <;> rfl
    cases result with
    | rotated next expiresAt userId familyId =>
      obtain ⟨token, current, replaced, row, rfl, locked, seen, replaces, inserted, issues, rfl,
        rfl, only⟩ := holds
      have apart : next ≠ token := by
        rintro rfl
        have there := locked.row
        rw [inserted.vacant] at there
        cases there
      exact .rotated here locked.locked locked.row locked.unrevoked inserted.vacant inserted.new
        replaces issues (rows_commit_of_only apart only seen inserted.view) rfl
    | issued token expiresAt =>
      obtain ⟨row, userId, rfl, inserted, issues, familyKnown, own, only⟩ := holds
      refine .issued here inserted.view inserted.vacant inserted.new issues
        (fun l a there same => ?_) ?_ rfl
      · have mine := own l a (.inl there) same
        obtain rfl := only l mine
        rw [inserted.vacant] at there
        cases there
      · funext l
        rcases eq_or_ne l token with rfl | other
        · simpa using inserted.view
        · have unheld : s.tokens.holder l ≠ some i := fun mine => other (only l mine)
          simp [other, RowStore.view_of_not_held unheld]
    | invalid => exact plain trivial holds
    | reused userId familyId => exact plain trivial holds
    | done => exact plain trivial holds
    | deleted affected => exact plain trivial holds

omit [DecidableEq κ] in
/-- A call that has locked no row has changed none. -/
theorem evolves_of_unheld (unheld : ∀ l, s.tokens.holder l ≠ some i) (l : κ)
    (mine : s.tokens.holder l = some i) : Evolves (s.tokens.rows l) (s.tokens.view i l) :=
  (unheld l mine).elim

theorem CallsInv.advance [DecidableEq φ] [DecidableEq υ] (inv : CallsInv s)
    (here : s.calls i = some call)
    (advances : s.advance i call = some s') : CallsInv s' ∧ Change s s' := by
  have holds := inv.calls i call here
  unfold Sessions.advance at advances
  split at advances
  next token rotate at_ =>
    rw [at_] at holds
    split at advances
    next =>
      cases advances
      exact inv.goto (evolves_of_unheld holds)
    next current there =>
      split_ifs at advances with free
      cases advances
      exact inv.lockCurrent rotate holds there free
  next token current next expiresAt rotate at_ =>
    split_ifs at advances with free
    split at advances
    next gone =>
      rw [at_] at holds
      obtain ⟨first, row, request, locked, view, -⟩ := holds
      rw [rotate] at request
      cases request
      rw [gone] at view
      cases view
    next row seen =>
      cases advances
      exact inv.replaceCurrent here at_ rotate free seen
  next token revoke at_ =>
    rw [at_] at holds
    split at advances <;> cases advances
    · exact inv.goto holds
    · exact inv.goto ⟨trivial, evolves_of_unheld holds⟩
  next scope result at_ =>
    rw [at_] at holds
    cases advances
    exact inv.goto holds
  next scope revokedAt remaining result at_ =>
    rw [at_] at holds
    split_ifs at advances
    cases advances
    obtain ⟨plain, evolves⟩ := holds
    cases result <;> first | exact plain.elim | exact inv.goto evolves
  next before at_ =>
    rw [at_] at holds
    cases advances
    exact inv.goto (evolves_of_unheld holds)
  next before remaining affected at_ =>
    rw [at_] at holds
    split_ifs at advances
    cases advances
    exact inv.goto holds
  next result at_ =>
    cases advances
    exact inv.commit here at_
  next => cases advances

omit [DecidableEq κ] in
theorem holds_begin {request : Request κ φ υ} (unheld : ∀ l, s.tokens.holder l ≠ some i) :
    request.begin.Holds s i request := by
  cases request with
  | revokeFamily familyId => exact ⟨trivial, evolves_of_unheld unheld⟩
  | revokeAllForUser userId => exact ⟨trivial, evolves_of_unheld unheld⟩
  | issue | rotate | revoke | deleteFinished => exact unheld

omit [DecidableEq κ] in
theorem CallsInv.tick (inv : CallsInv s) (now : Nat) : CallsInv { s with now } where
  within := inv.within
  families := inv.families
  rotations := inv.rotations
  idle := inv.idle
  calls i call here := (inv.calls i call here).same rfl rfl rfl

omit [DecidableEq κ] in
theorem CallsInv.crash (inv : CallsInv s) :
    CallsInv { s.goto i call .crashed with tokens := s.tokens.rollback i } :=
  inv.put (.rollback rfl rfl rfl) rfl inv.within.rollback
    (fun l a shows_ => inv.families l a (RowStore.shows_rollback shows_)) inv.rotations
    fun _ mine => (RowStore.holder_rollback.mp mine).2 rfl

/-- What a step can do. -/
theorem CallsInv.step [DecidableEq φ] [DecidableEq υ] {ttl : Nat}
    {action : Sessions.Action κ φ υ ι} (inv : CallsInv s)
    (stepped : Sessions.step ttl action s = some s') : CallsInv s' ∧ Change s s' := by
  cases action with
  | tick now =>
    simp only [Sessions.step] at stepped
    split_ifs at stepped
    cases stepped
    exact ⟨inv.tick now, .same rfl rfl⟩
  | call i request =>
    simp only [Sessions.step] at stepped
    split_ifs at stepped with new
    cases stepped
    exact inv.goto (holds_begin (inv.idle i new))
  | insert i token familyId =>
    obtain ⟨call, here, inserts⟩ := Option.bind_eq_some_iff.mp stepped
    exact inv.insertNext here inserts
  | lock i token =>
    obtain ⟨call, here, locks⟩ := Option.bind_eq_some_iff.mp stepped
    exact inv.lockNext here locks
  | advance i =>
    obtain ⟨call, here, advances⟩ := Option.bind_eq_some_iff.mp stepped
    exact inv.advance here advances
  | crash i =>
    obtain ⟨call, here, rfl⟩ := Option.map_eq_some_iff.mp stepped
    exact ⟨inv.crash, .same rfl rfl⟩

omit [DecidableEq κ] in
theorem CallsInv.start (now : Nat) : CallsInv (Sessions.start now : Sessions κ φ υ ι) where
  within := fun _ _ => ⟨rfl, rfl⟩
  families := by simp [Sessions.start, RowStore.Shows, RowStore.start]
  rotations := by simp [Sessions.start]
  idle := by simp [Sessions.start, RowStore.start]
  calls := by simp [Sessions.start]

end Finstack.RefreshTokens
