import Finstack.Model.Idempotency.Keys

/-! # Who holds a key

A claim is the id of the row and its status. So a request whose claim was taken over still completes
or releases the row while its successor is at work, and a row expires without regard to who holds
it. As long as neither happens, at most one request holds the key.
-/

namespace Finstack.Idempotency

open Foundation

variable {κ β ι : Type} [DecidableEq κ] [DecidableEq ι] {config : Config} {k k' : Key κ β ι}
  {i j : ι} {id id' : κ} {call : Call κ β} {pc : Pc κ β} {row : IdempotencyKey κ β}

/-- The id that `begin` has returned to a request that is not over. -/
def Pc.record : Pc κ β → Option κ
  | .execute id | .complete id _ _ | .release id => some id
  | _ => none

/-- `begin` has returned. -/
def Pc.isGiven : Pc κ β → Bool
  | .execute _ | .replay _ _ => true
  | _ => false

omit [DecidableEq κ] in
theorem Pc.record_again (attempt : Nat) : (again attempt : Pc κ β).record = none := by
  unfold again
  split_ifs <;> rfl

omit [DecidableEq κ] in
theorem Pc.record_decideExisting (clock attempt : Nat) (request : RequestFingerprint)
    (existing : IdempotencyKey κ β) :
    (decideExisting clock attempt request existing).record = none := by
  unfold decideExisting
  split_ifs <;> rfl

namespace Key

/-- The request is at work, and its claim was not taken over. -/
def Claims (k : Key κ β ι) (i : ι) (id : κ) : Prop :=
  ∃ call, k.calls i = some call ∧ call.pc.record = some id ∧ k.claims id = some i

/-- The claim was taken over. -/
def TakenOver (k : Key κ β ι) (i : ι) (id : κ) : Prop := ∃ j ∈ k.claims id, j ≠ i

instance (k : Key κ β ι) (i : ι) (id : κ) : Decidable (k.TakenOver i id) :=
  inferInstanceAs (Decidable (∃ j ∈ k.claims id, j ≠ i))

/-- Nobody is at work under a claim of this id. -/
def Unclaimed (k : Key κ β ι) (id : κ) : Prop :=
  ∀ j ∈ k.claims id, ∀ call ∈ k.calls j, call.pc.record ≠ some id

instance (k : Key κ β ι) (id : κ) : Decidable (k.Unclaimed id) :=
  inferInstanceAs (Decidable (∀ j ∈ k.claims id, ∀ call ∈ k.calls j, call.pc.record ≠ some id))

/-- The statement does not find a row that it would end for somebody else: it completes or releases
the row of a claim that was taken over only if that is not in progress, and it deletes an expired
row only if nobody holds it. -/
def SparesPc (k : Key κ β ι) (i : ι) (clock : Nat) : Pc κ β → Prop
  | .complete id _ _ | .release id => k.TakenOver i id → k.processing id = none
  | .deleteExisting _ id => ∀ row ∈ k.row, row.id = id → row.expiresAt < clock → k.Unclaimed id
  | _ => True

instance (k : Key κ β ι) (i : ι) (clock : Nat) : ∀ pc : Pc κ β, Decidable (k.SparesPc i clock pc)
  | .complete id _ _ | .release id =>
    haveI : Decidable (k.processing id = none) := decidable_of_iff _ Option.isNone_iff_eq_none
    inferInstanceAs (Decidable (_ → _))
  | .deleteExisting _ id => inferInstanceAs
      (Decidable (∀ row ∈ k.row, row.id = id → row.expiresAt < clock → k.Unclaimed id))
  | .tryInsert _ | .findExisting _ | .takeOverStale _ | .execute _ | .replay _ _ | .returned _
  | .threw _ | .failed | .crashed => .isTrue trivial

/-- A step that spares the claims of others. -/
def Spares : Action κ β ι → Key κ β ι → Prop
  | .advance i clock, k | .incomplete i clock _, k => ∀ call ∈ k.calls i, k.SparesPc i clock call.pc
  | .deleteExpired, k => ∀ row ∈ k.row, row.expiresAt < k.now → k.Unclaimed row.id
  | _, _ => True

instance : ∀ (action : Action κ β ι) (k : Key κ β ι), Decidable (Spares action k)
  | .advance i clock, k | .incomplete i clock _, k =>
    inferInstanceAs (Decidable (∀ call ∈ k.calls i, k.SparesPc i clock call.pc))
  | .deleteExpired, k =>
    inferInstanceAs (Decidable (∀ row ∈ k.row, row.expiresAt < k.now → k.Unclaimed row.id))
  | .tick _, _ | .request _ _, _ | .tryInsert _ _ _, _ | .handled _ _ _, _ | .rejected _, _
  | .crash _, _ => .isTrue trivial

structure Inv (k : Key κ β ι) : Prop where
  known : ∀ row, k.row = some row → row.id ∈ k.ids
  runs : ∀ i call id, k.calls i = some call → call.pc.record = some id → id ∈ k.ids
  /-- A row in progress is claimed, and whoever holds a claim has the row. -/
  owned : ∀ row, k.row = some row → row.status = .processing → (k.claims row.id).isSome
  kept : ∀ i id, k.Claims i id → ∃ row, k.row = some row ∧ row.id = id ∧ row.status = .processing

omit [DecidableEq ι] in
theorem processing_eq (found : k.processing id = some row) :
    k.row = some row ∧ row.id = id ∧ row.status = .processing := by
  simp only [processing, Option.filter_eq_some_iff, decide_eq_true_eq] at found
  exact ⟨found.1, found.2.1, found.2.2⟩

omit [DecidableEq κ] in
theorem calls_goto_self : (k.goto i call pc).calls i = some { call with pc } :=
  Function.update_self ..

omit [DecidableEq κ] in
theorem calls_goto_ne (other : j ≠ i) : (k.goto i call pc).calls j = k.calls j :=
  Function.update_of_ne other ..

omit [DecidableEq κ] in
/-- A request goes on and leaves the row alone. -/
theorem Inv.goto (inv : k.Inv) (here : k.calls i = some call ∨ pc.record = none)
    (same : ∀ id, pc.record = some id → call.pc.record = some id) : (k.goto i call pc).Inv where
  known := inv.known
  runs j call' id at_ runs := by
    rcases eq_or_ne j i with rfl | other
    · rw [calls_goto_self] at at_
      cases at_
      rcases here with here | none
      · exact inv.runs j call id here (same id runs)
      · rw [none] at runs
        cases runs
    · exact inv.runs j call' id (calls_goto_ne other ▸ at_) runs
  owned := inv.owned
  kept j id claims := by
    obtain ⟨call', at_, runs, claimed⟩ := claims
    rcases eq_or_ne j i with rfl | other
    · rw [calls_goto_self] at at_
      cases at_
      rcases here with here | none
      · exact inv.kept j id ⟨call, here, same id runs, claimed⟩
      · rw [none] at runs
        cases runs
    · exact inv.kept j id ⟨call', calls_goto_ne other ▸ at_, runs, claimed⟩

/-- The row is given to `i`, and nobody else holds it. -/
theorem Inv.claim (inv : k.Inv) (row : IdempotencyKey κ β) {ids : List κ} (subset : k.ids ⊆ ids)
    (member : row.id ∈ ids) (processing : row.status = .processing)
    (others : ∀ j id, k.Claims j id → id = row.id) :
    Inv { k.goto i call (.execute row.id) with
      row := some row, ids, claims := Function.update k.claims row.id (some i) } where
  known := by
    rintro _ ⟨⟩
    exact member
  runs j call' id at_ runs := by
    rcases eq_or_ne j i with rfl | other
    · have at_ := calls_goto_self.symm.trans at_
      cases at_
      cases runs
      exact member
    · exact subset (inv.runs j call' id ((calls_goto_ne other).symm.trans at_) runs)
  owned := by
    rintro _ ⟨⟩ -
    simp
  kept j id claims := by
    obtain ⟨call', at_, runs, claimed⟩ := claims
    rcases eq_or_ne id row.id with rfl | different
    · exact ⟨row, rfl, rfl, processing⟩
    · have claimed : k.claims id = some j := by simpa [different] using claimed
      rcases eq_or_ne j i with rfl | other
      · have at_ := calls_goto_self.symm.trans at_
        cases at_
        cases runs
        exact (different rfl).elim
      · exact (different (others j id ⟨call', (calls_goto_ne other).symm.trans at_, runs,
          claimed⟩)).elim

omit [DecidableEq κ] [DecidableEq ι] in
/-- Whoever holds a claim holds it on the row. -/
theorem Inv.eq_of_claims (inv : k.Inv) (there : k.row = some row) (claims : k.Claims j id') :
    id' = row.id := by
  obtain ⟨row', there', rfl, -⟩ := inv.kept j id' claims
  rw [there] at there'
  cases there'
  rfl

/-- The row of a claim that was not taken over belongs to the request. -/
theorem Inv.claims_eq (inv : k.Inv) (found : k.processing id = some row)
    (spares : k.TakenOver i id → k.processing id = none) : k.claims id = some i := by
  obtain ⟨there, rfl, processing⟩ := processing_eq found
  obtain ⟨j, claimed⟩ := Option.isSome_iff_exists.mp (inv.owned row there processing)
  by_contra other
  have taken : k.TakenOver i row.id := by
    refine ⟨j, claimed, ?_⟩
    rintro rfl
    exact other claimed
  rw [spares taken] at found
  cases found

omit [DecidableEq κ] [DecidableEq ι] in
/-- The row is completed or gone, and nobody holds a claim. -/
theorem Inv.ended (inv : k.Inv) {row' : Option (IdempotencyKey κ β)} {claims : κ → Option ι}
    (same : ∀ r, row' = some r → r.id ∈ k.ids ∧ r.status ≠ .processing)
    (unclaimed : ∀ j id, ¬ Claims { k with row := row', claims } j id) :
    Inv { k with row := row', claims } where
  known r there := (same r there).1
  runs := inv.runs
  owned r there processing := ((same r there).2 processing).elim
  kept j id claimed := (unclaimed j id claimed).elim

/-- Nobody else holds the row that a request gives up. -/
theorem Inv.not_claims_endClaim (inv : k.Inv) (found : k.processing id = some row)
    (mine : k.claims id = some i) {row' : Option (IdempotencyKey κ β)} :
    ¬ Claims { k with row := row', claims := k.endClaim i id } j id' := by
  rintro ⟨call, at_, runs, claimed⟩
  obtain ⟨there, rfl, -⟩ := processing_eq found
  simp only [endClaim, mine, if_true] at claimed
  rcases eq_or_ne id' row.id with rfl | other
  · simp at claimed
  · rw [Function.update_of_ne other] at claimed
    exact other (inv.eq_of_claims there ⟨call, at_, runs, claimed⟩)

theorem calls_complete (k : Key κ β ι) (i : ι) (clock : Nat) (id : κ) (status : Nat)
    (body : Option β) : (k.complete i clock id status body).calls = k.calls := by
  unfold Key.complete
  split <;> rfl

theorem Inv.complete (inv : k.Inv) (spares : k.TakenOver i id → k.processing id = none)
    (clock status : Nat) (body : Option β) : (k.complete i clock id status body).Inv := by
  unfold Key.complete
  split
  · exact inv
  next row found =>
    apply inv.ended
    · rintro _ ⟨⟩
      exact ⟨inv.known row (processing_eq found).1, by simp⟩
    · intro j id'
      exact inv.not_claims_endClaim found (inv.claims_eq found spares)

theorem Inv.release (inv : k.Inv) (spares : k.TakenOver i id → k.processing id = none) :
    (k.release i id).Inv := by
  unfold Key.release
  split
  · exact inv
  next row found =>
    apply inv.ended (by simp)
    intro j id'
    exact inv.not_claims_endClaim found (inv.claims_eq found spares)

omit [DecidableEq κ] [DecidableEq ι] in
/-- An expired row is deleted that nobody holds. -/
theorem Inv.delete (inv : k.Inv) {keep : IdempotencyKey κ β → Bool}
    (spares : ∀ row, k.row = some row → keep row = false → k.Unclaimed row.id) :
    Inv { k with row := k.row.filter keep } := by
  cases there : k.row with
  | none =>
    have same : ({ k with row := (none : Option (IdempotencyKey κ β)).filter keep } : Key κ β ι) = k := by
      rw [Option.filter_none, ← there]
    rw [same]
    exact inv
  | some row =>
    cases kept : keep row with
    | true =>
      have same : ({ k with row := (some row).filter keep } : Key κ β ι) = k := by
        rw [Option.filter_some_pos kept, ← there]
      rw [same]
      exact inv
    | false =>
      rw [Option.filter_some_neg (by simp [kept])]
      apply inv.ended (by simp)
      rintro j id' ⟨call, at_, runs, claimed⟩
      obtain rfl := inv.eq_of_claims there ⟨call, at_, runs, claimed⟩
      exact spares row there kept j claimed call at_ runs

theorem Inv.takeOverStale (inv : k.Inv) : (k.takeOverStale config i id call).Inv := by
  unfold Key.takeOverStale
  split
  · exact inv.goto (.inr rfl) (by simp [Pc.record])
  next row found =>
    obtain ⟨there, rfl, processing⟩ := processing_eq found
    split_ifs with stale
    · apply inv.claim { row with lockedAt := k.now } (List.Subset.refl _) (inv.known row there)
        processing
      intro j id claims
      have same : id = row.id := inv.eq_of_claims there claims
      exact same
    · exact inv.goto (.inr rfl) (by simp [Pc.record])

theorem Inv.tryInsert (inv : k.Inv) {clock attempt : Nat}
    (inserts : k.tryInsert config i clock attempt id call = some k') : k'.Inv := by
  unfold Key.tryInsert at inserts
  split_ifs at inserts with there new <;> cases inserts
  · exact inv.goto (.inr rfl) (by simp [Pc.record])
  · apply inv.claim ⟨id, _, _, _, .processing, _, _, _, _, _⟩ (List.subset_cons_self _ _)
      List.mem_cons_self rfl
    intro j id' claims
    obtain ⟨row, there', -⟩ := inv.kept j id' claims
    simp [there'] at there

theorem Inv.advance (inv : k.Inv) {clock : Nat} (spares : k.SparesPc i clock call.pc)
    (advances : k.advance config i clock call = some k') :
    k'.Inv := by
  unfold Key.advance at advances
  split at advances
  next => split at advances <;> cases advances
          · exact inv.goto (.inr (Pc.record_again _)) (by simp [Pc.record_again])
          · exact inv.goto (.inr (Pc.record_decideExisting ..)) (by simp [Pc.record_decideExisting])
  next attempt id here =>
    cases advances
    rw [here] at spares
    apply Inv.goto _ (.inr (Pc.record_again _)) (by simp [Pc.record_again])
    apply inv.delete
    intro row there gone
    obtain ⟨rfl, expired⟩ : row.id = id ∧ row.expiresAt < clock := by simpa using gone
    exact spares row there rfl expired
  next id =>
    cases advances
    exact inv.takeOverStale
  next id status body here =>
    cases advances
    rw [here] at spares
    exact (inv.complete spares clock status body).goto (.inr rfl) (by simp [Pc.record])
  next id here =>
    cases advances
    rw [here] at spares
    exact (inv.release spares).goto (.inr rfl) (by simp [Pc.record])
  next => cases advances

theorem Inv.step (inv : k.Inv) {action : Action κ β ι} (spares : Spares action k)
    (steps : step config action k = some k') : k'.Inv := by
  cases action with
  | tick now =>
    simp only [Key.step, Option.ite_none_right_eq_some] at steps
    obtain ⟨-, ⟨⟩⟩ := steps
    exact ⟨inv.known, inv.runs, inv.owned, inv.kept⟩
  | request i request =>
    simp only [Key.step, Option.ite_none_right_eq_some] at steps
    obtain ⟨-, ⟨⟩⟩ := steps
    exact inv.goto (.inr rfl) (by simp [Pc.record])
  | tryInsert i clock id =>
    obtain ⟨call, at_, steps⟩ := Option.bind_eq_some_iff.mp steps
    split at steps
    · exact inv.tryInsert steps
    · cases steps
  | advance i clock =>
    obtain ⟨call, at_, steps⟩ := Option.bind_eq_some_iff.mp steps
    exact inv.advance (spares call at_) steps
  | handled i status body =>
    obtain ⟨call, at_, steps⟩ := Option.bind_eq_some_iff.mp steps
    split at steps <;> cases steps
    next id here => exact inv.goto (.inl at_) (by simp [Pc.record, here])
  | rejected i =>
    obtain ⟨call, at_, steps⟩ := Option.bind_eq_some_iff.mp steps
    split at steps <;> cases steps
    next id here => exact inv.goto (.inl at_) (by simp [Pc.record, here])
  | incomplete i clock stored =>
    obtain ⟨call, at_, steps⟩ := Option.bind_eq_some_iff.mp steps
    split at steps <;> cases steps
    next id status body here =>
      have mine := spares call at_
      rw [here] at mine
      cases stored with
      | false => exact inv.goto (.inl at_) (by simp [Pc.record, here])
      | true =>
        apply (inv.complete mine clock status body).goto (.inl _) (by simp [Pc.record, here])
        rw [← at_]
        exact congrFun (calls_complete ..) i
  | deleteExpired =>
    cases steps
    apply inv.delete
    intro row there gone
    exact spares row there (by simpa using gone)
  | crash i =>
    obtain ⟨call, at_, rfl⟩ := Option.map_eq_some_iff.mp steps
    exact inv.goto (.inr rfl) (by simp [Pc.record])

omit [DecidableEq κ] [DecidableEq ι] in
theorem Inv.start (now : Nat) : (start now : Key κ β ι).Inv where
  known := by simp [Key.start]
  runs := by simp [Key.start]
  owned := by simp [Key.start]
  kept := by simp [Key.start, Claims]

theorem Inv.of_reaches {now : Nat} (reaches : Reaches config Spares (.start now) k) : k.Inv :=
  reaches.invariant Inv (fun _ _ _ inv spares steps => inv.step spares steps) (.start now)

omit [DecidableEq κ] [DecidableEq ι] in
/-- Two requests that hold the key are one. -/
theorem Inv.exclusive (inv : k.Inv) (claims : k.Claims i id) (claims' : k.Claims j id') : i = j := by
  obtain ⟨row, there, rfl, -⟩ := inv.kept i id claims
  obtain rfl := inv.eq_of_claims there claims'
  have given := claims.choose_spec.2.2.symm.trans claims'.choose_spec.2.2
  exact Option.some.inj given

omit [DecidableEq κ] in
/-- A request that goes on without being given the key. -/
theorem calls_of_goto {call call' : Call κ β} (at_ : (k.goto i call pc).calls j = some call')
    (given : call'.pc.isGiven) (waits : pc.isGiven = false) : k.calls j = some call' := by
  rcases eq_or_ne j i with rfl | other
  · rw [calls_goto_self] at at_
    cases at_
    rw [waits] at given
    cases given
  · rwa [calls_goto_ne other] at at_

theorem calls_release (k : Key κ β ι) (i : ι) (id : κ) : (k.release i id).calls = k.calls := by
  unfold Key.release
  split <;> rfl

omit [DecidableEq κ] in
theorem Pc.isGiven_again (attempt : Nat) : (again attempt : Pc κ β).isGiven = false := by
  unfold again
  split_ifs <;> rfl

omit [DecidableEq κ] in
theorem Pc.isGiven_decideExisting {clock attempt : Nat} {request : RequestFingerprint}
    (processing : row.status = .processing) :
    (decideExisting clock attempt request row).isGiven = false := by
  unfold decideExisting
  split_ifs with expired reused completed
  · rfl
  · rfl
  · rw [processing] at completed
    cases completed
  · rfl

/-- Nobody is given anything by a statement while the row is in progress and fresh. -/
theorem calls_of_advance {clock : Nat} (there : k.row = some row)
    (processing : row.status = .processing) (fresh : k.now ≤ row.lockedAt + config.lockTimeoutMs)
    (advances : k.advance config i clock call = some k') {call' : Call κ β}
    (at_ : k'.calls j = some call') (given : call'.pc.isGiven) : k.calls j = some call' := by
  unfold Key.advance at advances
  split at advances
  next =>
    rw [there] at advances
    cases advances
    exact calls_of_goto at_ given (Pc.isGiven_decideExisting processing)
  next =>
    cases advances
    exact calls_of_goto at_ given (Pc.isGiven_again _)
  next id =>
    cases advances
    unfold Key.takeOverStale at at_
    split at at_
    · exact calls_of_goto at_ given rfl
    next row' found =>
      obtain ⟨there', -⟩ := processing_eq found
      obtain rfl : row = row' := Option.some.inj (there.symm.trans there')
      rw [if_neg (by omega)] at at_
      exact calls_of_goto at_ given rfl
  next id status body =>
    cases advances
    have before := calls_of_goto at_ given rfl
    rwa [calls_complete] at before
  next id =>
    cases advances
    have before := calls_of_goto at_ given rfl
    rwa [calls_release] at before
  next => cases advances

/-- Nobody is given anything while the row is in progress and fresh. -/
theorem calls_of_isGiven {action : Action κ β ι} (there : k.row = some row)
    (processing : row.status = .processing) (fresh : k.now ≤ row.lockedAt + config.lockTimeoutMs)
    (steps : step config action k = some k') {call' : Call κ β} (at_ : k'.calls j = some call')
    (given : call'.pc.isGiven) : k.calls j = some call' := by
  cases action with
  | tick now =>
    simp only [Key.step, Option.ite_none_right_eq_some] at steps
    obtain ⟨-, ⟨⟩⟩ := steps
    exact at_
  | request i request =>
    simp only [Key.step, Option.ite_none_right_eq_some] at steps
    obtain ⟨-, ⟨⟩⟩ := steps
    exact calls_of_goto at_ given rfl
  | tryInsert i clock id =>
    obtain ⟨call, -, steps⟩ := Option.bind_eq_some_iff.mp steps
    split at steps
    · rw [Key.tryInsert, if_pos (by simp [there])] at steps
      cases steps
      exact calls_of_goto at_ given rfl
    · cases steps
  | advance i clock =>
    obtain ⟨call, -, steps⟩ := Option.bind_eq_some_iff.mp steps
    exact calls_of_advance there processing fresh steps at_ given
  | handled i status body =>
    obtain ⟨call, -, steps⟩ := Option.bind_eq_some_iff.mp steps
    split at steps <;> cases steps
    exact calls_of_goto at_ given rfl
  | rejected i =>
    obtain ⟨call, -, steps⟩ := Option.bind_eq_some_iff.mp steps
    split at steps <;> cases steps
    exact calls_of_goto at_ given rfl
  | incomplete i clock stored =>
    obtain ⟨call, -, steps⟩ := Option.bind_eq_some_iff.mp steps
    split at steps <;> cases steps
    have before := calls_of_goto at_ given rfl
    cases stored with
    | false => exact before
    | true => rwa [if_pos rfl, calls_complete] at before
  | deleteExpired =>
    cases steps
    exact at_
  | crash i =>
    obtain ⟨call, -, rfl⟩ := Option.map_eq_some_iff.mp steps
    exact calls_of_goto at_ given rfl

/-- The request that a step belongs to. -/
def Action.actor : Action κ β ι → Option ι
  | .tryInsert i _ _ | .advance i _ | .handled i _ _ | .rejected i | .incomplete i _ _
  | .crash i => some i
  | .tick _ | .request _ _ | .deleteExpired => none

/-- A request that spares the claims of others leaves the row alone once its own was taken over. -/
theorem row_of_takenOver {action : Action κ β ι} (actor : action.actor = some i)
    (spares : Spares action k) (steps : step config action k = some k')
    (at_ : k.calls i = some call) (runs : call.pc.record = some id) (taken : k.TakenOver i id) :
    k'.row = k.row := by
  cases action with
  | tick | request | deleteExpired => cases actor
  | tryInsert i clock id' =>
    cases actor
    obtain ⟨_, same, steps⟩ := Option.bind_eq_some_iff.mp steps
    obtain rfl := Option.some.inj (at_.symm.trans same)
    split at steps
    next here => simp [Pc.record, here] at runs
    next => cases steps
  | advance i clock =>
    cases actor
    obtain ⟨_, same, steps⟩ := Option.bind_eq_some_iff.mp steps
    obtain rfl := Option.some.inj (at_.symm.trans same)
    have mine := spares call at_
    unfold Key.advance at steps
    split at steps
    next here => simp [Pc.record, here] at runs
    next here => simp [Pc.record, here] at runs
    next here => simp [Pc.record, here] at runs
    next id' status body here =>
      cases steps
      obtain rfl : id' = id := by simpa [Pc.record, here] using runs
      rw [here] at mine
      simp [goto, Key.complete, mine taken]
    next id' here =>
      cases steps
      obtain rfl : id' = id := by simpa [Pc.record, here] using runs
      rw [here] at mine
      simp [goto, Key.release, mine taken]
    next => cases steps
  | handled i status body =>
    cases actor
    obtain ⟨call, -, steps⟩ := Option.bind_eq_some_iff.mp steps
    split at steps <;> cases steps
    rfl
  | rejected i =>
    cases actor
    obtain ⟨call, -, steps⟩ := Option.bind_eq_some_iff.mp steps
    split at steps <;> cases steps
    rfl
  | incomplete i clock stored =>
    cases actor
    obtain ⟨_, same, steps⟩ := Option.bind_eq_some_iff.mp steps
    obtain rfl := Option.some.inj (at_.symm.trans same)
    have mine := spares call at_
    split at steps <;> cases steps
    next id' status body here =>
      obtain rfl : id' = id := by simpa [Pc.record, here] using runs
      rw [here] at mine
      cases stored with
      | false => rfl
      | true => simp [goto, Key.complete, mine taken]
  | crash i =>
    obtain ⟨call, -, rfl⟩ := Option.map_eq_some_iff.mp steps
    rfl

/-- As long as every step spares the claims of others, at most one request holds the key, a request
whose claim was taken over changes nothing, and nobody else is given the key or an answer while a
claim is fresh. -/
theorem exclusive_of_spares (now : Nat) (reaches : Reaches config Spares (.start now) k) :
    (∀ i j id id', k.Claims i id → k.Claims j id' → i = j) ∧
    ∀ action k', step config action k = some k' →
      (∀ i call id, Spares action k → action.actor = some i → k.calls i = some call →
        call.pc.record = some id → k.TakenOver i id → k'.row = k.row) ∧
      ∀ i id, k.Claims i id →
        (∀ row, k.row = some row → k.now ≤ row.lockedAt + config.lockTimeoutMs) →
        ∀ j call, k'.calls j = some call → call.pc.isGiven → k.calls j = some call := by
  have inv := Inv.of_reaches reaches
  constructor
  · intro i j id id' claims claims'
    exact inv.exclusive claims claims'
  · intro action k' steps
    constructor
    · intro i call id spares actor at_ runs taken
      exact row_of_takenOver actor spares steps at_ runs taken
    · intro i id claims fresh j call at_ given
      obtain ⟨row, there, -, processing⟩ := inv.kept i id claims
      exact calls_of_isGiven there processing (fresh row there) steps at_ given

instance (k : Key κ β ι) (i : ι) (id : κ) : Decidable (k.Claims i id) :=
  decidable_of_iff (∃ call ∈ k.calls i, call.pc.record = some id ∧ k.claims id = some i) Iff.rfl

/-- A payment that is sent again, and again. -/
def transfer : RequestFingerprint := ⟨"POST", "/api/v1/transfers", "c0ffee"⟩

/-- The first request is slow, and the second takes its claim over. Then the handler of the first
throws. -/
def slowRequest : List (Action Nat Unit Nat) :=
  [.request 0 transfer, .tryInsert 0 0 0, .tick 11,
    .request 1 transfer, .tryInsert 1 11 1, .advance 1 11, .advance 1 11, .rejected 0]

/-- One request holds the key, and the first that it was taken from has not changed the row. -/
theorem exclusive_of_slowRequest : ∃ k : Key Nat Unit Nat,
    Reaches ⟨1000, 10⟩ Spares (.start 0) k ∧ k.Claims 1 0 ∧ k.TakenOver 0 0 ∧
    ((∀ i j id id', k.Claims i id → k.Claims j id' → i = j) ∧
    ∀ action k', step ⟨1000, 10⟩ action k = some k' →
      (∀ i call id, Spares action k → action.actor = some i → k.calls i = some call →
        call.pc.record = some id → k.TakenOver i id → k'.row = k.row) ∧
      ∀ i id, k.Claims i id →
        (∀ row, k.row = some row → k.now ≤ row.lockedAt + 10) →
        ∀ j call, k'.calls j = some call → call.pc.isGiven → k.calls j = some call) := by
  have ran : ((Schedule.run (step ⟨1000, 10⟩) Spares slowRequest (.start 0)).map fun k =>
      decide (k.Claims 1 0 ∧ k.TakenOver 0 0)) = some true := by decide +kernel
  obtain ⟨k, runs, holds⟩ := Option.map_eq_some_iff.mp ran
  have reaches : Reaches ⟨1000, 10⟩ Spares (.start 0) k := Schedule.reaches_of_run runs
  obtain ⟨claims, taken⟩ := of_decide_eq_true holds
  exact ⟨k, reaches, claims, taken, exclusive_of_spares 0 reaches⟩

/-- The first request releases the row of the second, and a third is given the key as well. -/
theorem not_exclusive : ∃ k k' : Key Nat Unit Nat,
    Reaches ⟨1000, 10⟩ Schedule.Any (.start 0) k ∧ k.TakenOver 0 0 ∧ k.row.isSome ∧
    Reaches ⟨1000, 10⟩ Schedule.Any k k' ∧ k'.now = k.now ∧ k'.Claims 1 0 ∧ k'.Claims 2 1 := by
  have ran : ((Schedule.run (step ⟨1000, 10⟩) Schedule.Any slowRequest
      (.start 0 : Key Nat Unit Nat)).bind fun k =>
        (Schedule.run (step ⟨1000, 10⟩) Schedule.Any
          [.advance 0 11, .request 2 transfer, .tryInsert 2 11 1] k).map fun k' =>
            decide (k.TakenOver 0 0 ∧ k.row.isSome ∧ k'.now = k.now ∧ k'.Claims 1 0 ∧
              k'.Claims 2 1)) = some true := by
    decide +kernel
  obtain ⟨k, k', run, run', seen⟩ := Schedule.reaches_of_runs ran
  obtain ⟨taken, there, fresh, second, third⟩ := of_decide_eq_true seen
  exact ⟨k, k', run, taken, there, run', fresh, second, third⟩

end Key

end Finstack.Idempotency
