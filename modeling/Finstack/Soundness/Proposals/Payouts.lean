import Finstack.Model.Proposals.Decisions

/-! # What is paid for a proposal

The payout commits on another connection than the proposal, and only its idempotency key leads back
to it. So a decision can be written although the payout is already made, the key can be taken by
somebody else, and the proposal can expire between the check and the lock. Where none of this
happens, an executed proposal has its payout and the others have none.
-/

namespace Finstack.Proposals

open Foundation

/-! ## The key -/

/-- An organization can choose the key of a proposal's payout. -/
theorem isValidIdempotencyKey_payoutKey (id : Uuid) :
    isValidIdempotencyKey (some (payoutKey id)) = true := by
  have text : (payoutKey id).toList = "proposal:".toList ++ (uuidText id).toList := by
    unfold payoutKey
    simp [toString]
  have length : (uuidText id).toList.length = 36 := by
    simp [uuidText, length_hexDigits]
  have characters : ∀ c ∈ (uuidText id).toList, isKeyCharacter c = true :=
    forall_mem_uuidText (P := (isKeyCharacter · = true)) (by decide) rfl id
  have whole : (payoutKey id).toList.length = 45 := by
    rw [text, List.length_append, length]
    rfl
  have all : (payoutKey id).toList.all isKeyCharacter = true := by
    rw [text, List.all_append, Bool.and_eq_true]
    exact ⟨by decide, List.all_eq_true.mpr characters⟩
  simp [isValidIdempotencyKey, whole, all]

/-! ## The proposal and its payouts -/

variable {ι : Type} [DecidableEq ι] {c c' : Case ι} {i j : ι} {call : Call} {pc : Pc}
  {proposal : ActionProposal}

namespace Case

/-- What holds of a proposal at any time, and of its payouts. -/
structure Settled (proposal : ActionProposal) (c : Case ι) : Prop where
  same : c.proposal.id = proposal.id ∧ c.proposal.params = proposal.params ∧
    c.proposal.expiresAt = proposal.expiresAt
  executed : c.proposal.status = .executed → ∃ made, c.made = [made] ∧
    proposal.params.Describes made.payout ∧
    c.proposal.result = some ⟨made.payout.id, made.payout.reference⟩
  undone : c.proposal.status = .rejected ∨ c.proposal.status = .expired ∨
    c.proposal.status = .failed → c.made = []
  timely : ∀ made ∈ c.made, made.lockedAt < proposal.expiresAt

/-- A decision other than `executed` is written only while there is no transaction under the key, and
an approval locks the proposal only before it expires. -/
def GuardsPc (c : Case ι) (i : ι) (decision : Decision) : Pc → Prop
  | .expireIfDue =>
    c.proposal.status = .pending → c.proposal.expiresAt ≤ c.now → c.existing = none
  | .lockPending =>
    decision = .approve → c.proposal.status = .pending → c.now < c.proposal.expiresAt
  | .saveFailed _ | .saveRejected => c.holder = some i → c.existing = none
  | _ => True

instance (c : Case ι) (i : ι) (decision : Decision) : ∀ pc, Decidable (c.GuardsPc i decision pc)
  | .expireIfDue => inferInstanceAs (Decidable (_ → _ → _))
  | .lockPending => inferInstanceAs (Decidable (_ → _ → _))
  | .saveFailed _ | .saveRejected => inferInstanceAs (Decidable (_ → _))
  | .findByIdempotencyKey _ | .createWithHold _ | .findWinner _ | .submit _ | .saveExecuted _
  | .returned _ | .threw _ | .failed | .crashed => .isTrue trivial

/-- Besides, the payout is made only by a call that has the lock, and nobody else uses the key. -/
def Guards : Action ι → Case ι → Prop
  | .advance i, c => ∀ call ∈ c.calls i, c.GuardsPc i call.decision call.pc
  | .createWithHold i _ _ _, c => c.holder = some i
  | .request key _, c => key ≠ payoutKey c.proposal.id
  | _, _ => True

instance : ∀ (action : Action ι) (c : Case ι), Decidable (Guards action c)
  | .advance i, c => inferInstanceAs (Decidable (∀ call ∈ c.calls i, c.GuardsPc i call.decision call.pc))
  | .createWithHold i _ _ _, c => inferInstanceAs (Decidable (c.holder = some i))
  | .request key _, c => inferInstanceAs (Decidable (key ≠ payoutKey c.proposal.id))
  | .tick _, _ | .approve .., _ | .reject .., _ | .refuse .., _ | .outage _, _ | .disconnect _, _
  | .crash _, _ => .isTrue trivial

/-- Where a call is, given the transaction under the key: an approval inside its transaction has
locked the proposal in time, and it saves a payout that is there. -/
def Knows (expiresAt : Nat) (existing : Option Transaction) : Pc → Prop
  | .findByIdempotencyKey lockedAt | .createWithHold lockedAt | .findWinner lockedAt =>
    lockedAt < expiresAt
  | .submit payout | .saveExecuted payout => existing = some (.payout payout)
  | _ => True

structure Inv (proposal : ActionProposal) (c : Case ι) : Prop where
  same : c.proposal.id = proposal.id ∧ c.proposal.params = proposal.params ∧
    c.proposal.expiresAt = proposal.expiresAt
  /-- What is under the key was made by an approval. -/
  made : (c.existing = none ∧ c.made = []) ∨ ∃ made, c.made = [made] ∧
    c.existing = some (.payout made.payout) ∧ proposal.params.Describes made.payout ∧
    made.lockedAt < proposal.expiresAt
  executed : c.proposal.status = .executed → ∃ payout, c.existing = some (.payout payout) ∧
    c.proposal.result = some ⟨payout.id, payout.reference⟩
  undone : c.proposal.status = .rejected ∨ c.proposal.status = .expired ∨
    c.proposal.status = .failed → c.existing = none
  locked : ∀ i, c.holder = some i → c.proposal.status = .pending
  knows : ∀ i call, c.calls i = some call → Knows proposal.expiresAt c.existing call.pc

omit [DecidableEq ι] in
theorem Inv.settled (inv : c.Inv proposal) : c.Settled proposal where
  same := inv.same
  executed status := by
    obtain ⟨payout, there, result⟩ := inv.executed status
    rcases inv.made with ⟨none, -⟩ | ⟨made, one, there', describes, -⟩
    · rw [none] at there
      cases there
    · rw [there] at there'
      cases there'
      exact ⟨made, one, describes, result⟩
  undone status := by
    have none := inv.undone status
    rcases inv.made with ⟨-, empty⟩ | ⟨made, -, there, -⟩
    · exact empty
    · rw [none] at there
      cases there
  timely made member := by
    rcases inv.made with ⟨-, empty⟩ | ⟨made', one, -, -, timely⟩
    · simp [empty] at member
    · obtain rfl : made = made' := by simpa [one] using member
      exact timely

theorem Inv.goto (inv : c.Inv proposal) (knows : Knows proposal.expiresAt c.existing pc) :
    (c.goto i call pc).Inv proposal where
  same := inv.same
  made := inv.made
  executed := inv.executed
  undone := inv.undone
  locked := inv.locked
  knows j call' at_ := by
    rcases eq_or_ne j i with rfl | other
    · obtain rfl : { call with pc } = call' := by simpa [Case.goto] using at_
      exact knows
    · exact inv.knows j call' (by simpa [Case.goto, other] using at_)

theorem Inv.unlock (inv : c.Inv proposal) (i : ι) : (c.unlock i).Inv proposal where
  same := inv.same
  made := inv.made
  executed := inv.executed
  undone := inv.undone
  locked j holder := by
    have before : c.holder = some j := by
      by_contra other
      simp only [Case.unlock] at holder
      split_ifs at holder
      exact other holder
    exact inv.locked j before
  knows := inv.knows

theorem Inv.expireIfDue (inv : c.Inv proposal)
    (guards : c.proposal.status = .pending → c.proposal.expiresAt ≤ c.now → c.existing = none)
    (expires : c.expireIfDue i call = some c') : c'.Inv proposal := by
  unfold Case.expireIfDue at expires
  split_ifs at expires with due free <;> cases expires
  · have moved : (c.goto i call (.threw proposalExpiredException)).Inv proposal := inv.goto trivial
    exact {
      same := inv.same
      made := inv.made
      executed := by simp
      undone := fun _ => guards due.1 due.2
      locked := by simp [Case.goto, free]
      knows := moved.knows }
  · exact inv.goto trivial

theorem Inv.lockPending (inv : c.Inv proposal)
    (guards : call.decision = .approve → c.proposal.status = .pending →
      c.now < c.proposal.expiresAt) (locks : c.lockPending i call = some c') : c'.Inv proposal := by
  unfold Case.lockPending at locks
  split_ifs at locks with free decided <;> cases locks
  · exact inv.goto trivial
  · rw [not_not] at decided
    have moved : ∀ pc, Knows proposal.expiresAt c.existing pc → (c.goto i call pc).Inv proposal :=
      fun pc knows => inv.goto knows
    cases decision : call.decision with
    | approve =>
      exact { moved (.findByIdempotencyKey c.now) (inv.same.2.2 ▸ guards decision decided) with
        locked := fun _ _ => decided }
    | reject => exact { moved .saveRejected trivial with locked := fun _ _ => decided }

theorem Inv.save (inv : c.Inv proposal) {status : ProposalStatus} {result : Option ProposalResult}
    {reason : Option String}
    (executed : status = .executed → ∃ payout, c.existing = some (.payout payout) ∧
      result = some ⟨payout.id, payout.reference⟩)
    (undone : c.holder = some i → status ≠ .executed → c.existing = none) :
    (c.save i call status result reason).Inv proposal := by
  unfold Case.save
  split_ifs with holds
  · have moved : (c.goto i call (.returned status)).Inv proposal := inv.goto trivial
    exact {
      same := inv.same
      made := inv.made
      executed := executed
      undone := by
        rintro (rfl | rfl | rfl) <;> exact undone holds (by simp)
      locked := by simp
      knows := moved.knows }
  · exact inv.goto trivial

omit [DecidableEq ι] in
/-- What a request finds under the key was made by an approval. -/
theorem Inv.viewByTransaction (inv : c.Inv proposal) {transaction : Transaction}
    (found : c.existing = some transaction) :
    Knows proposal.expiresAt c.existing (viewByTransaction transaction) := by
  rcases inv.made with ⟨none, -⟩ | ⟨made, -, there, -⟩
  · rw [none] at found
    cases found
  · rw [there] at found
    cases found
    exact there

theorem Inv.advance (inv : c.Inv proposal) (at_ : c.calls i = some call)
    (guards : c.GuardsPc i call.decision call.pc) (advances : c.advance i call = some c') :
    c'.Inv proposal := by
  have knows := inv.knows i call at_
  unfold Case.advance at advances
  split at advances
  next here =>
    rw [here] at guards
    exact inv.expireIfDue guards advances
  next here =>
    rw [here] at guards
    exact inv.lockPending guards advances
  next lockedAt here =>
    rw [here] at knows
    split at advances <;> cases advances
    next transaction found => exact inv.goto (inv.viewByTransaction found)
    next => exact inv.goto knows
  next here =>
    split at advances <;> cases advances
    next transaction found => exact inv.goto (inv.viewByTransaction found)
    next => exact (inv.unlock i).goto trivial
  next payout here =>
    cases advances
    rw [here] at knows
    exact inv.goto knows
  next payout here =>
    cases advances
    rw [here] at knows
    exact inv.save (fun _ => ⟨payout, knows, rfl⟩) (by simp)
  next here =>
    cases advances
    rw [here] at guards
    exact inv.save (by simp) fun holds _ => guards holds
  next here =>
    cases advances
    rw [here] at guards
    exact inv.save (by simp) fun holds _ => guards holds
  next => cases advances

omit [DecidableEq ι] in
/-- Nobody has saved a payout that is not there yet. -/
theorem Knows.of_none {expiresAt : Nat} {existing : Option Transaction}
    (knows : Knows expiresAt none pc) : Knows expiresAt existing pc := by
  cases pc with
  | submit | saveExecuted => cases knows
  | _ => exact knows

/-- The payout is made, while its approval has the lock. -/
theorem Inv.make (inv : c.Inv proposal) {lockedAt : Nat} {payout : Payout}
    (none : c.existing = none) (pending : c.proposal.status = .pending)
    (describes : proposal.params.Describes payout) (timely : lockedAt < proposal.expiresAt) :
    Inv proposal { c.goto i call (.submit payout) with
      transactions := Function.update c.transactions (payoutKey c.proposal.id) (some (.payout payout))
      made := ⟨i, lockedAt, payout⟩ :: c.made } := by
  have empty : c.made = [] := by
    rcases inv.made with ⟨-, empty⟩ | ⟨made, -, there, -⟩
    · exact empty
    · rw [none] at there
      cases there
  have there : Function.update c.transactions (payoutKey c.proposal.id) (some (.payout payout))
      (payoutKey c.proposal.id) = some (.payout payout) := Function.update_self ..
  exact {
    same := inv.same
    made := .inr ⟨⟨i, lockedAt, payout⟩, by rw [empty], there, describes, timely⟩
    executed := by simp [Case.goto, pending]
    undone := by simp [Case.goto, pending]
    locked := inv.locked
    knows := by
      intro j call' moved
      rcases eq_or_ne j i with rfl | other
      · obtain rfl : { call with pc := .submit payout } = call' := by
          simpa [Case.goto] using moved
        exact there
      · have before := inv.knows j call' (by simpa [Case.goto, other] using moved)
        rw [none] at before
        exact before.of_none }

theorem Inv.createWithHold (inv : c.Inv proposal) (at_ : c.calls i = some call) {lockedAt : Nat}
    (here : call.pc = .createWithHold lockedAt) (holds : c.holder = some i) {id walletId : Uuid}
    {reference : String}
    (creates : c.createWithHold i lockedAt id reference walletId call = some c') :
    c'.Inv proposal := by
  have timely := inv.knows i call at_
  rw [here] at timely
  unfold Case.createWithHold at creates
  simp only [Option.ite_none_right_eq_some] at creates
  obtain ⟨given, creates⟩ := creates
  split at creates
  · obtain rfl := Option.some.inj creates
    exact inv.goto timely
  next taken =>
    obtain rfl := Option.some.inj creates
    apply inv.make (by simpa using taken) (inv.locked i holds) _ timely
    rw [← inv.same.2.1]
    exact ⟨rfl, rfl, by simpa [Option.all_eq_true] using given⟩

theorem Inv.step {action : Action ι} (inv : c.Inv proposal) (guards : Guards action c)
    (steps : step action c = some c') : c'.Inv proposal := by
  cases action with
  | tick now =>
    simp only [Case.step, Option.ite_none_right_eq_some] at steps
    obtain ⟨-, ⟨⟩⟩ := steps
    exact ⟨inv.same, inv.made, inv.executed, inv.undone, inv.locked, inv.knows⟩
  | approve i userId note =>
    simp only [Case.step, Option.ite_none_right_eq_some] at steps
    obtain ⟨-, ⟨⟩⟩ := steps
    exact inv.goto trivial
  | reject i userId note =>
    simp only [Case.step, Option.ite_none_right_eq_some] at steps
    obtain ⟨-, ⟨⟩⟩ := steps
    exact inv.goto trivial
  | advance i =>
    obtain ⟨call, at_, steps⟩ := Option.bind_eq_some_iff.mp steps
    exact inv.advance at_ (guards call at_) steps
  | createWithHold i id reference walletId =>
    obtain ⟨call, at_, steps⟩ := Option.bind_eq_some_iff.mp steps
    split at steps
    next lockedAt here => exact inv.createWithHold at_ here guards steps
    next => cases steps
  | refuse i exception =>
    obtain ⟨call, -, steps⟩ := Option.bind_eq_some_iff.mp steps
    split_ifs at steps <;> cases steps
    · exact inv.goto trivial
    · exact (inv.unlock i).goto trivial
  | outage i =>
    obtain ⟨call, -, steps⟩ := Option.bind_eq_some_iff.mp steps
    split_ifs at steps
    cases steps
    exact (inv.unlock i).goto trivial
  | disconnect i =>
    cases steps
    exact inv.unlock i
  | crash i =>
    obtain ⟨call, -, steps⟩ := Option.bind_eq_some_iff.mp steps
    split_ifs at steps
    cases steps
    exact (inv.unlock i).goto trivial
  | request key transaction =>
    simp only [Case.step, Option.ite_none_right_eq_some] at steps
    obtain ⟨-, steps⟩ := steps
    split_ifs at steps <;> cases steps
    · have same : Case.existing { c with
          transactions := Function.update c.transactions key (some transaction) } = c.existing :=
        Function.update_of_ne (Ne.symm guards) ..
      exact {
        same := inv.same
        made := by rw [same]; exact inv.made
        executed := by rw [same]; exact inv.executed
        undone := by rw [same]; exact inv.undone
        locked := inv.locked
        knows := by rw [same]; exact inv.knows }
    · exact inv

omit [DecidableEq ι] in
theorem Inv.start (now clock : Nat) (id : Uuid) (params : PayoutProposalParams) :
    (start now (propose id params clock) : Case ι).Inv (propose id params clock) where
  same := ⟨rfl, rfl, rfl⟩
  made := .inl ⟨rfl, rfl⟩
  executed := by simp [Case.start, propose]
  undone := by simp [Case.start, propose]
  locked := by simp [Case.start]
  knows := by simp [Case.start]

/-- As long as no step ends the proposal over a payout, pays late or without the lock, or takes the
key for something else, the proposal and its payouts agree. -/
theorem settled_of_guards (now clock : Nat) (id : Uuid) (params : PayoutProposalParams)
    (reaches : Reaches Guards (.start now (propose id params clock)) c) :
    c.Settled (propose id params clock) := by
  have inv := Schedule.Reaches.invariant reaches (Inv (propose id params clock))
    (fun _ _ _ inv guards steps => inv.step guards steps) (.start now clock id params)
  exact inv.settled

/-- A payout of 250 dollars to destination 7. -/
def dollars : PayoutProposalParams := ⟨7, 25000, none⟩

/-- The proposal is approved, and the payout is made. -/
def approval : List (Action Nat) :=
  [.approve 0 5 none, .advance 0, .advance 0, .advance 0, .createWithHold 0 3 "pay_3" 4]

/-- The payout is submitted, and the proposal is executed. -/
theorem settled_of_approval : ∃ c : Case Nat,
    Reaches Guards (.start 0 (propose 1 dollars 0)) c ∧ c.proposal.status = .executed ∧
      c.Settled (propose 1 dollars 0) := by
  have ran : ((Schedule.run step Guards (approval ++ [.advance 0, .advance 0])
      (.start 0 (propose 1 dollars 0))).map fun c =>
        decide (c.proposal.status = .executed)) = some true := by decide +kernel
  obtain ⟨c, run, executed⟩ := Option.map_eq_some_iff.mp ran
  have reaches : Reaches Guards (.start 0 (propose 1 dollars 0)) c := Schedule.reaches_of_run run
  exact ⟨c, reaches, of_decide_eq_true executed, settled_of_guards 0 0 1 dollars reaches⟩

/-- The process dies after the payout's transaction has committed, and then the proposal is
rejected. -/
theorem not_settled : ∃ (c : Case Nat) (payout : Payout),
    Reaches Schedule.Any (.start 0 (propose 1 dollars 0)) c ∧ c.proposal.status = .rejected ∧
      c.made = [⟨0, 0, payout⟩] := by
  have ran : ((Schedule.run step Schedule.Any
      (approval ++ [.crash 0, .reject 1 6 none, .advance 1, .advance 1])
      (.start 0 (propose 1 dollars 0))).map fun c =>
        decide (c.proposal.status = .rejected ∧ c.made = [⟨0, 0, ⟨3, "pay_3", 7, 25000, 4⟩⟩])) =
      some true := by
    decide +kernel
  obtain ⟨c, run, seen⟩ := Option.map_eq_some_iff.mp ran
  obtain ⟨rejected, made⟩ := of_decide_eq_true seen
  exact ⟨c, _, Schedule.reaches_of_run run, rejected, made⟩

end Case

end Finstack.Proposals
