import Finstack.Model.Submission.Payouts

/-! # Payouts are accepted at most once

Each payout follows the claim window: its `submittedAt` is the mark, its calls are the callers, and
its transfers are what was accepted. What the window gives, together with what each call has read,
is kept by every step.
-/

namespace Finstack.PayoutSubmission

open Foundation
open Foundation.Submission (Request)

variable {ι : Type} [DecidableEq ι] {span now : Nat}

/-- A call that has not claimed the submission. -/
def Pc.Waits : Pc → Prop
  | .view | .viewed _ | .find _ _ | .noResult _ _ => True
  | _ => False

/-- A call that was told that there is no transfer. -/
def Pc.Asked (pc : Pc) : Prop := ∃ status t, pc = .noResult status (some t)

/-- A call that saw no earlier submission, and may fail the payout. -/
def Pc.Unasked (pc : Pc) : Prop := pc = .awaiting none ∨ pc = .fail

/-- A call that may still claim the submission of a payout it saw processing. -/
def Pc.SawProcessing : Pc → Prop
  | .viewed status | .find status _ | .noResult status _ => status = .processing
  | _ => False

/-- What a call of a payout knows. -/
structure CallInv (w : Submission.State ι) (transfers : List Transfer) (i : ι) (call : Call) :
    Prop where
  waits : call.pc.Waits → ∃ asked, w.waiting i = some ⟨call.start, asked⟩ ∧
    (asked ≠ none ↔ call.pc.Asked)
  unsent : call.pc.Waits ∨ (∃ submittedAt, call.pc = .initiate submittedAt) → call.request = none
  unseen : ∀ status, call.pc = .noResult status none → ∀ t, w.mark = some t → call.start ≤ t
  granted : ∀ submittedAt, call.pc = .initiate submittedAt → ∃ g ∈ w.grants, g.caller = i ∧
    g.start = call.start ∧ g.phase = .granted ∧ (submittedAt = none → g.asked = none)
  sent : ∀ request, call.request = some request → ∃ g ∈ w.grants, g.caller = i ∧
    g.start = call.start ∧ g.phase = request.phase ∧ (call.pc.Unasked → g.asked = none)
  rejected : call.pc = .fail → call.request = some .refused
  answered : ∀ status, call.pc = .answered status → transfers ≠ [] ∧
    (status = .failed ∨ status = .reversed → ∃ x ∈ transfers, x.reported)

/-- Nobody can still bring about a transfer. -/
structure Closed (w : Submission.State ι) (span : Nat) (calls : ι → Option Call) : Prop where
  ended : ∀ g ∈ w.grants, g.phase.isOpen = false
  marked : ∃ t, w.mark = some t ∧
    ∀ i call, calls i = some call → call.pc.SawProcessing → call.start < t + span

/-- A payout and the claim window it follows. -/
structure Follows (span now : Nat) (p : Payout ι) (w : Submission.State ι) : Prop where
  window : Submission.Inv RESUBMIT_AFTER_MS span w
  now : w.now = now
  mark : w.mark = p.row.submittedAt
  accepted : w.accepted = p.transfers.length
  new : ∀ i, p.calls i = none → w.waiting i = none
  calls : ∀ i call, p.calls i = some call → CallInv w p.transfers i call
  failed : p.row.status = .failed →
    (∀ x ∈ p.transfers, x.reported) ∧ (p.transfers = [] → Closed w span p.calls)

omit [DecidableEq ι] in
theorem Follows.created (now : Nat) :
    Follows span now (Payout.created : Payout ι) (Submission.State.start now) where
  window := Submission.Inv.start now
  now := rfl
  mark := rfl
  accepted := rfl
  new := fun _ _ => rfl
  calls := by simp [Payout.created]
  failed := by simp [Payout.created]

variable {p : Payout ι} {w w' : Submission.State ι} {i : ι} {call : Call} {s : Sight}

omit [DecidableEq ι] in
/-- What another call's step leaves of what this call knows. -/
theorem CallInv.mono {transfers transfers' : List Transfer} {j : ι}
    (inv : CallInv w transfers j call) (other : j ≠ i) (waiting : w'.waiting j = w.waiting j)
    (grants : ∀ g ∈ w.grants, g.caller ≠ i → g ∈ w'.grants)
    (mark : ∀ t, w'.mark = some t → w.mark = some t ∨ (call.pc.Waits → call.start ≤ t))
    (known : transfers ≠ [] → transfers' ≠ [])
    (reported : (∃ x ∈ transfers, x.reported) → ∃ x ∈ transfers', x.reported) :
    CallInv w' transfers' j call where
  waits := by rw [waiting]; exact inv.waits
  unsent := inv.unsent
  unseen status here t marked := by
    rcases mark t marked with old | late
    · exact inv.unseen status here t old
    · exact late (by rw [here]; trivial)
  granted submittedAt here := by
    obtain ⟨g, member, caller, rest⟩ := inv.granted submittedAt here
    exact ⟨g, grants g member (caller ▸ other), caller, rest⟩
  sent request here := by
    obtain ⟨g, member, caller, rest⟩ := inv.sent request here
    exact ⟨g, grants g member (caller ▸ other), caller, rest⟩
  rejected := inv.rejected
  answered status here := by
    obtain ⟨some, own⟩ := inv.answered status here
    exact ⟨known some, fun bad => reported (own bad)⟩

/-- A payout after a step of one of its calls. -/
theorem Follows.put (f : Follows span now p w) (running : p.calls i = some call)
    (window : Submission.Inv RESUBMIT_AFTER_MS span w') (time : w'.now = now)
    (waiting : ∀ j, j ≠ i → w'.waiting j = w.waiting j)
    (grants : ∀ g ∈ w.grants, g.caller ≠ i → g ∈ w'.grants)
    (mark : w'.mark = w.mark ∨ w'.mark = some now)
    (known : p.transfers ≠ [] → s.transfers ≠ [])
    (reported : (∃ x ∈ p.transfers, x.reported) → ∃ x ∈ s.transfers, x.reported)
    (marked : w'.mark = s.row.submittedAt) (accepted : w'.accepted = s.transfers.length)
    (own : CallInv w' s.transfers i ⟨call.start, s.pc, s.request⟩)
    (failed : s.row.status = .failed → (∀ x ∈ s.transfers, x.reported) ∧
      (s.transfers = [] → Closed w' span (p.put i call.start s).calls)) :
    Follows span now (p.put i call.start s) w' where
  window := window
  now := time
  mark := marked
  accepted := accepted
  new j free := by
    rcases eq_or_ne j i with rfl | other
    · simp [Payout.put] at free
    · rw [waiting j other]
      exact f.new j (by simpa [Payout.put, other] using free)
  calls j call' running' := by
    rcases eq_or_ne j i with rfl | other
    · obtain rfl : _ = call' := by simpa [Payout.put] using running'
      exact own
    · have inv := f.calls j call' (by simpa [Payout.put, other] using running')
      refine inv.mono other (waiting j other) grants (fun t here => ?_) known reported
      rcases mark with same | new
      · exact .inl (same ▸ here)
      · obtain rfl : now = t := Option.some.inj (new.symm.trans here)
        refine .inr fun waits => ?_
        obtain ⟨asked, call, -⟩ := inv.waits waits
        exact (f.window.calls j _ call).1.trans_eq f.now
  failed := failed

/-- A failed payout without transfers stays closed while its calls learn nothing new. -/
theorem Closed.put (closed : Closed w span p.calls) (running : p.calls i = some call)
    (saw : s.pc.SawProcessing → call.pc.SawProcessing) :
    Closed w span (p.put i call.start s).calls where
  ended := closed.ended
  marked := by
    obtain ⟨t, mark, before⟩ := closed.marked
    refine ⟨t, mark, fun j call' running' sees => ?_⟩
    rcases eq_or_ne j i with rfl | other
    · obtain rfl : _ = call' := by simpa [Payout.put] using running'
      exact before j call running (saw sees)
    · exact before j call' (by simpa [Payout.put, other] using running') sees

/-- A call goes on without a trace in the row or at the provider. -/
theorem Follows.goOn (f : Follows span now p w) (running : p.calls i = some call) {pc : Pc}
    (own : CallInv w p.transfers i { call with pc })
    (saw : pc.SawProcessing → call.pc.SawProcessing ∨ p.row.status = .processing) :
    Follows span now (p.put i call.start { p.sight call with pc }) w := by
  refine f.put running f.window f.now (fun _ _ => rfl) (fun _ member _ => member) (.inl rfl) id id
    f.mark f.accepted own fun failed => ?_
  obtain ⟨reported, closed⟩ := f.failed failed
  refine ⟨reported, fun nothing => (closed nothing).put running fun sees => ?_⟩
  rcases saw sees with saw | processing
  · exact saw
  · rw [show p.row.status = .failed from failed] at processing
    cases processing

omit [DecidableEq ι] in
/-- A call that has nothing left to send or to fail. -/
theorem CallInv.leave {transfers : List Transfer} (inv : CallInv w transfers i call) {pc : Pc}
    (left : pc = .done ∨ pc = .reverse) : CallInv w transfers i { call with pc } := by
  refine ⟨?_, ?_, ?_, ?_, fun request here => ?_, ?_, ?_⟩
  · rcases left with rfl | rfl <;> simp [Pc.Waits]
  · rcases left with rfl | rfl <;> simp [Pc.Waits]
  · rcases left with rfl | rfl <;> simp
  · rcases left with rfl | rfl <;> simp
  · obtain ⟨g, member, caller, start, phase, -⟩ := inv.sent request here
    refine ⟨g, member, caller, start, phase, ?_⟩
    rcases left with rfl | rfl <;> simp [Pc.Unasked]
  · rcases left with rfl | rfl <;> simp
  · rcases left with rfl | rfl <;> simp

omit [DecidableEq ι] in
/-- A call that has read something, and has not asked. -/
theorem CallInv.read {transfers : List Transfer} (inv : CallInv w transfers i call)
    (waits : call.pc.Waits) (unasked : ¬ call.pc.Asked) {pc : Pc} (still : pc.Waits)
    (unasked' : ¬ pc.Asked)
    (unseen : ∀ status, pc = .noResult status none → ∀ t, w.mark = some t → call.start ≤ t) :
    CallInv w transfers i { call with pc } := by
  obtain ⟨asked, waiting, same⟩ := inv.waits waits
  refine ⟨fun _ => ⟨asked, waiting, ?_⟩, fun _ => inv.unsent (.inl waits), unseen,
    fun submittedAt here => ?_,
    fun request here => ?_, fun here => ?_, fun status here => ?_⟩
  · exact same.trans ⟨fun told => (unasked told).elim, fun told => (unasked' told).elim⟩
  · obtain rfl : pc = _ := here
    exact still.elim
  · obtain ⟨g, member, caller, start, phase, -⟩ := inv.sent request here
    refine ⟨g, member, caller, start, phase, fun bad => ?_⟩
    rcases bad with here | here <;> obtain rfl : pc = _ := here <;> exact still.elim
  · obtain rfl : pc = _ := here
    exact still.elim
  · obtain rfl : pc = _ := here
    exact still.elim

/-! ## What a call does -/

theorem Follows.afterView (f : Follows span now p w) (running : p.calls i = some call)
    {status : TransactionStatus} (here : call.pc = .viewed status) :
    Follows span now (p.put i call.start
      { p.sight call with pc := afterView status p.row.submittedAt }) w := by
  have inv := f.calls i call running
  have waits : call.pc.Waits := by rw [here]; trivial
  have unasked : ¬ call.pc.Asked := by simp [here, Pc.Asked]
  unfold PayoutSubmission.afterView
  cases marked : p.row.submittedAt with
  | none =>
    dsimp only
    split_ifs
    · exact f.goOn running (inv.leave (.inl rfl)) False.elim
    · refine f.goOn running (inv.read waits unasked trivial (by simp [Pc.Asked])
        fun _ _ t mark => ?_) fun saw => .inl ?_
      · rw [f.mark, marked] at mark
        cases mark
      · rw [here]
        exact saw
  | some t =>
    dsimp only
    split_ifs
    · exact f.goOn running (inv.leave (.inl rfl)) False.elim
    · refine f.goOn running (inv.read waits unasked trivial (by simp [Pc.Asked])
        (by simp)) fun saw => .inl ?_
      rw [here]
      exact saw

/-- The provider says that it has no transfer. -/
theorem Follows.ask (enough : 2 * span ≤ RESUBMIT_AFTER_MS) (f : Follows span now p w)
    (running : p.calls i = some call) (lasts : now < call.start + span)
    {status : TransactionStatus} {submittedAt : Nat} (here : call.pc = .find status submittedAt)
    (nothing : p.transfers = []) :
    ∃ w', Follows span now (p.put i call.start
      { p.sight call with pc := .noResult status (some submittedAt) }) w' := by
  have inv := f.calls i call running
  have waits : call.pc.Waits := by rw [here]; trivial
  obtain ⟨asked, waiting, -⟩ := inv.waits waits
  have none : w.accepted = 0 := by rw [f.accepted, nothing]; rfl
  have step : Submission.Step RESUBMIT_AFTER_MS span w _ := .ask waiting (f.now ▸ lasts) none
  refine ⟨_, f.put running (f.window.step enough step) f.now
    (fun j other => Function.update_of_ne other _ _) (fun _ member _ => member) (.inl rfl) id id
    f.mark f.accepted ⟨fun _ => ?_, fun _ => inv.unsent (.inl waits), by simp, by simp, ?_, by simp,
      by simp⟩ fun failed => ?_⟩
  · exact ⟨some w.now, Function.update_self .., by simp [Pc.Asked]⟩
  · intro request here'
    obtain ⟨g, member, caller, start, phase, -⟩ := inv.sent request here'
    exact ⟨g, member, caller, start, phase, by simp [Pc.Unasked]⟩
  · obtain ⟨reported, closed⟩ := f.failed failed
    refine ⟨reported, fun nothing => ?_⟩
    have kept := (closed nothing).put (s := { p.sight call with
      pc := .noResult status (some submittedAt) }) running (by rw [here]; exact id)
    exact ⟨kept.ended, kept.marked⟩

/-- The provider tells the status of a transfer. -/
theorem Follows.report (f : Follows span now p w) (running : p.calls i = some call)
    {before after : List Transfer} {transfer : Transfer} (answer : PayoutResultStatus)
    (known : p.transfers = before ++ transfer :: after) :
    Follows span now (p.put i call.start { p.sight call with
      pc := .answered answer
      transfers := before ++ transfer.report answer :: after }) w := by
  have inv := f.calls i call running
  have kept : transfer.reported → (transfer.report answer).reported := by
    intro reported
    simp [Transfer.report, reported]
  refine f.put running f.window f.now (fun _ _ => rfl) (fun _ member _ => member) (.inl rfl)
    (by simp) (fun ⟨x, member, reported⟩ => ?_) f.mark (by rw [f.accepted, known]; simp)
    ⟨False.elim, by simp [Pc.Waits], by simp, by simp, ?_, by simp,
      fun status here => ⟨by simp, fun bad => ?_⟩⟩
    fun failed => ⟨fun x member => ?_, by simp⟩
  · rw [known, List.mem_append, List.mem_cons] at member
    rcases member with old | rfl | old
    · exact ⟨x, List.mem_append_left _ old, reported⟩
    · exact ⟨_, List.mem_append_right _ List.mem_cons_self, kept reported⟩
    · exact ⟨x, List.mem_append_right _ (List.mem_cons_of_mem _ old), reported⟩
  · intro request here
    obtain ⟨g, member, caller, start, phase, -⟩ := inv.sent request here
    exact ⟨g, member, caller, start, phase, by simp [Pc.Unasked]⟩
  · obtain rfl := Pc.answered.inj here
    exact ⟨_, List.mem_append_right _ List.mem_cons_self, by
      rcases bad with rfl | rfl <;> simp [Transfer.report]⟩
  · have all := (f.failed failed).1
    rw [known] at all
    rcases List.mem_append.mp member with old | new
    · exact all x (List.mem_append_left _ old)
    · rcases List.mem_cons.mp new with rfl | old
      · exact kept (all transfer (by simp))
      · exact all x (by simp [old])

/-- A claim on a row that carries an earlier submission is that submission grown old. -/
theorem claimSubmission_granted {row row' : Row} (granted : claimSubmission now row = some row') :
    row' = { row with submittedAt := some now } ∧
      ∀ t, row.submittedAt = some t → t + RESUBMIT_AFTER_MS < now := by
  unfold claimSubmission at granted
  cases marked : row.submittedAt with
  | none =>
    simp only [marked] at granted
    exact ⟨(Option.some.inj granted).symm, by simp⟩
  | some t =>
    simp only [marked] at granted
    split_ifs at granted with old
    exact ⟨(Option.some.inj granted).symm, by simpa using old⟩

/-- The submission is claimed. -/
theorem Follows.claim (enough : 2 * span ≤ RESUBMIT_AFTER_MS) (f : Follows span now p w)
    (running : p.calls i = some call) (lasts : now < call.start + span)
    {submittedAt : Option Nat} (here : call.pc = .noResult .processing submittedAt) {row : Row}
    (granted : claimSubmission now p.row = some row) :
    ∃ w', Follows span now (p.put i call.start
      { p.sight call with pc := .initiate submittedAt, row }) w' := by
  obtain ⟨rfl, old⟩ := claimSubmission_granted granted
  rw [← f.mark] at old
  have inv := f.calls i call running
  have waits : call.pc.Waits := by rw [here]; trivial
  obtain ⟨asked, waiting, answered⟩ := inv.waits waits
  have free : ∀ t, w.mark = some t → t + RESUBMIT_AFTER_MS < w.now ∧ asked ≠ none := by
    intro t marked
    refine ⟨f.now ▸ old t marked, ?_⟩
    cases submittedAt with
    | some u => exact answered.mpr ⟨_, u, here⟩
    | none =>
      -- the submission it did not see was made while it ran, and is not old
      have late := inv.unseen _ here t marked
      have gap := old t marked
      omega
  have step : Submission.Step RESUBMIT_AFTER_MS span w _ := .grant waiting (f.now ▸ lasts) free
  have window := f.window.step enough step
  refine ⟨_, f.put running window f.now (fun j other => Function.update_of_ne other _ _)
    (fun g member _ => List.mem_cons_of_mem _ member) (.inr ?_) id id ?_ ?_
    ⟨False.elim, fun _ => inv.unsent (.inl waits), by simp, fun u here' => ?_, ?_, by simp, by simp⟩
    fun failed => ?_⟩
  · exact congrArg some f.now
  · exact congrArg some f.now
  · exact Eq.trans (by simp [Submission.State.accepted]) f.accepted
  · obtain rfl := Pc.initiate.inj here'
    refine ⟨_, List.mem_cons_self, rfl, rfl, rfl, fun none => ?_⟩
    by_contra told
    obtain ⟨_, _, here''⟩ := answered.mp told
    rw [here, none] at here''
    cases here''
  · intro request here'
    obtain ⟨g, member, caller, start, phase, -⟩ := inv.sent request here'
    exact ⟨g, List.mem_cons_of_mem _ member, caller, start, phase, by simp [Pc.Unasked]⟩
  · -- a call that saw the payout processing is over before it could claim again
    obtain ⟨reported, closed⟩ := f.failed failed
    refine ⟨reported, fun nothing => ?_⟩
    obtain ⟨t, marked, before⟩ := (closed nothing).marked
    have started := before i call running (by rw [here]; rfl)
    have gap := old t marked
    omega

/-- The request of a call comes one step further. -/
theorem Follows.move (enough : 2 * span ≤ RESUBMIT_AFTER_MS) (f : Follows span now p w)
    (running : p.calls i = some call) (lasts : now < call.start + span)
    {g : Submission.Grant ι} (member : g ∈ w.grants) (caller : g.caller = i)
    (start : g.start = call.start) {request : Request} (next : g.phase.Next request.phase)
    {pc : Pc} (unasked : pc.Unasked → g.asked = none) {transfers : List Transfer}
    (made : transfers = if request = .accepted then ⟨false⟩ :: p.transfers else p.transfers)
    (own : CallInv w p.transfers i ⟨call.start, pc, none⟩)
    (past : ¬ (pc.Waits ∨ ∃ submittedAt, pc = .initiate submittedAt)) :
    ∃ w', Follows span now (p.put i call.start ⟨pc, some request, p.row, transfers⟩) w' := by
  obtain ⟨w', step, time, waiting, mark, accepted, moved, kept⟩ :=
    Submission.Step.exists_move member (by rw [start, f.now]; exact lasts) next
  have window := f.window.step enough step
  rw [f.accepted] at accepted
  have phase : request.phase = .accepted ↔ request = .accepted := by
    cases request <;> simp [Request.phase]
  simp only [phase] at accepted
  have known : p.transfers ≠ [] → transfers ≠ [] := by
    intro some
    rw [made]
    split_ifs
    · exact List.cons_ne_nil _ _
    · exact some
  have reported : (∃ x ∈ p.transfers, x.reported) → ∃ x ∈ transfers, x.reported := by
    rintro ⟨x, member, reported⟩
    refine ⟨x, ?_, reported⟩
    rw [made]
    split_ifs
    · exact List.mem_cons_of_mem _ member
    · exact member
  refine ⟨w', f.put running window (time.trans f.now) (fun j _ => congrFun waiting j)
    (fun e member other => kept e member fun same => other (same ▸ caller)) (.inl mark) known reported
    (mark.trans f.mark) ?_
    ⟨fun waits => (past (.inl waits)).elim, fun unsent => (past unsent).elim, fun status here => ?_,
      fun t here => (past (.inr ⟨t, here⟩)).elim, fun request' here => ?_, fun here => ?_,
      fun status here => ?_⟩ fun failed => ?_⟩
  · rw [accepted, made]
    split_ifs <;> rfl
  · exact (past (.inl (by rw [show pc = _ from here]; trivial))).elim
  · obtain rfl := Option.some.inj here
    exact ⟨_, moved, caller, start, rfl, unasked⟩
  · cases own.rejected here
  · obtain ⟨some, bad⟩ := own.answered status here
    exact ⟨known some, fun bad' => reported (bad bad')⟩
  · obtain ⟨all, closed⟩ := f.failed failed
    have opened : g.phase.isOpen := by
      cases own : g.phase <;> rw [own] at next <;> cases request <;> cases next <;> rfl
    have some : p.transfers ≠ [] := by
      intro nothing
      rw [(closed nothing).ended g member] at opened
      cases opened
    -- a second transfer would be one too many
    have one := window.once
    have more := List.length_pos_of_ne_nil some
    have unmade : request ≠ .accepted := by
      rintro rfl
      rw [accepted, if_pos rfl] at one
      omega
    obtain rfl : transfers = p.transfers := by rw [made, if_neg unmade]
    exact ⟨all, fun nothing => (some nothing).elim⟩

/-- The status of the payout changes, with nothing at the provider. -/
theorem Follows.settled (f : Follows span now p w) (running : p.calls i = some call) {row : Row}
    (marked : row.submittedAt = p.row.submittedAt) {pc : Pc} (left : pc = .done ∨ pc = .reverse)
    (failed : row.status = .failed → p.row.status = .failed ∨ (∃ x ∈ p.transfers, x.reported) ∨
      p.transfers = [] ∧ Closed w span p.calls) :
    Follows span now (p.put i call.start { p.sight call with pc, row }) w := by
  have unseen : pc.SawProcessing → call.pc.SawProcessing := by
    rcases left with rfl | rfl <;> exact False.elim
  refine f.put running f.window f.now (fun _ _ => rfl) (fun _ member _ => member) (.inl rfl) id id
    (f.mark.trans marked.symm) f.accepted ((f.calls i call running).leave left) fun here => ?_
  rcases failed here with old | reported | ⟨nothing, closed⟩
  · obtain ⟨all, closed⟩ := f.failed old
    exact ⟨all, fun nothing => (closed nothing).put running unseen⟩
  · obtain ⟨x, member, reported⟩ := reported
    -- there is only the one transfer
    have one := f.window.once
    rw [f.accepted] at one
    obtain ⟨y, only⟩ := List.length_eq_one_iff.mp
      (Nat.le_antisymm one (List.length_pos_of_mem member))
    rw [only, List.mem_singleton] at member
    subst member
    exact ⟨by simpa [Payout.sight, only] using reported, by simp [Payout.sight, only]⟩
  · exact ⟨by simp [Payout.sight, nothing], fun _ => closed.put running unseen⟩

omit [DecidableEq ι] in
/-- A request that was refused without an earlier submission seen was the only one. -/
theorem Follows.closed (enough : 2 * span ≤ RESUBMIT_AFTER_MS) (f : Follows span now p w)
    (running : p.calls i = some call) (lasts : now < call.start + span) (here : call.pc = .fail) :
    p.transfers = [] ∧ Closed w span p.calls := by
  have inv := f.calls i call running
  obtain ⟨g, member, -, start, phase, unasked⟩ := inv.sent _ (inv.rejected here)
  obtain ⟨later, earlier, list⟩ := List.append_of_mem member
  obtain rfl := f.window.first list (unasked (.inr here))
  obtain rfl := f.window.latest enough list (by rw [start, f.now]; exact lasts)
  have time := f.window.times g member
  have nothing : w.accepted = 0 := by
    simp [Submission.State.accepted, list, phase, Request.phase]
  refine ⟨List.eq_nil_of_length_eq_zero (f.accepted.symm.trans nothing), fun e member' => ?_,
    g.time, by simp [Submission.State.mark, list], fun j call' running' saw => ?_⟩
  · rw [list, List.nil_append, List.mem_singleton] at member'
    rw [member', phase]
    rfl
  · have waits : call'.pc.Waits := by
      cases own : call'.pc <;> rw [own] at saw <;> trivial
    obtain ⟨asked, waiting, -⟩ := (f.calls j call' running').waits waits
    have began := (f.window.calls j _ waiting).1
    have now' := f.now
    dsimp only at began
    omega

omit [DecidableEq ι] in
/-- A call whose request goes on without it. -/
theorem CallInv.unsend {transfers : List Transfer} (inv : CallInv w transfers i call)
    (going : call.pc ≠ .fail) : CallInv w transfers i { call with request := none } where
  waits := inv.waits
  unsent := fun _ => rfl
  unseen := inv.unseen
  granted := inv.granted
  sent := by simp
  rejected here := (going here).elim
  answered := inv.answered

omit [DecidableEq ι] in
theorem CallInv.past {transfers : List Transfer} (inv : CallInv w transfers i call)
    {request : Request} (sent : call.request = some request) :
    ¬ (call.pc.Waits ∨ ∃ submittedAt, call.pc = .initiate submittedAt) := by
  intro unsent
  cases (inv.unsent unsent).symm.trans sent

/-- The provider decides about a request. -/
theorem Follows.decide (enough : 2 * span ≤ RESUBMIT_AFTER_MS) (f : Follows span now p w)
    (running : p.calls i = some call) (lasts : now < call.start + span)
    (sent : call.request = some .inFlight) (request : Request)
    (next : Submission.Phase.Next .sent request.phase) {transfers : List Transfer}
    (made : transfers = if request = .accepted then ⟨false⟩ :: p.transfers else p.transfers) :
    ∃ w', Follows span now (p.put i call.start ⟨call.pc, some request, p.row, transfers⟩) w' := by
  have inv := f.calls i call running
  obtain ⟨g, member, caller, start, phase, unasked⟩ := inv.sent _ sent
  have going : call.pc ≠ .fail := by
    intro here
    cases sent.symm.trans (inv.rejected here)
  exact f.move enough running lasts member caller start (phase ▸ next) unasked made
    (inv.unsend going) (inv.past sent)

/-- The request is sent. -/
theorem Follows.initiate (enough : 2 * span ≤ RESUBMIT_AFTER_MS) (f : Follows span now p w)
    (running : p.calls i = some call) (lasts : now < call.start + span)
    {submittedAt : Option Nat} (here : call.pc = .initiate submittedAt) :
    ∃ w', Follows span now (p.put i call.start
      { p.sight call with pc := .awaiting submittedAt, request := some .inFlight }) w' := by
  have inv := f.calls i call running
  obtain ⟨g, member, caller, start, phase, unasked⟩ := inv.granted _ here
  refine f.move enough running lasts member caller start (phase ▸ .send) (fun bad => ?_) rfl
    ⟨False.elim, fun _ => rfl, by simp, by simp, by simp, by simp, by simp⟩ (by simp [Pc.Waits])
  exact unasked (by simpa [Pc.Unasked] using bad)

/-- The provider's error ends a call, or makes it fail the payout. -/
theorem Follows.onError (f : Follows span now p w) (running : p.calls i = some call)
    {retryable : Bool} {submittedAt : Option Nat}
    (definite : retryable = false → submittedAt = none → call.request = some .refused ∧
      call.pc = .awaiting none) :
    Follows span now (p.put i call.start
      { p.sight call with pc := onError retryable submittedAt }) w := by
  have inv := f.calls i call running
  unfold PayoutSubmission.onError
  split_ifs with fails
  · obtain ⟨refused, here⟩ := definite (by simpa using fails.1) (by simpa using fails.2)
    obtain ⟨g, member, caller, start, phase, unasked⟩ := inv.sent _ refused
    refine f.goOn running ⟨False.elim, by simp [Pc.Waits], by simp, by simp, fun request own => ?_,
      fun _ => refused, by simp⟩ False.elim
    obtain rfl := Option.some.inj (refused.symm.trans own)
    exact ⟨g, member, caller, start, phase, fun _ => unasked (.inl here)⟩
  · exact f.goOn running (inv.leave (.inl rfl)) False.elim

theorem settle_submittedAt (answer : PayoutResultStatus) (row : Row) :
    (settle answer row).submittedAt = row.submittedAt := by
  cases answer <;> simp only [settle, complete, fail] <;> split_ifs <;> rfl

/-- Only a bad answer fails a payout. -/
theorem settle_failed {answer : PayoutResultStatus} {row : Row}
    (failed : (settle answer row).status = .failed) :
    row.status = .failed ∨ answer = .failed ∨ answer = .reversed := by
  cases answer with
  | pending => exact .inl failed
  | successful =>
    simp only [settle, complete] at failed
    split_ifs at failed
    exact .inl failed
  | failed => exact .inr (.inl rfl)
  | reversed => exact .inr (.inr rfl)

/-- What one step of a call preserves. -/
theorem Follows.act (enough : 2 * span ≤ RESUBMIT_AFTER_MS) (f : Follows span now p w)
    (running : p.calls i = some call) (lasts : now < call.start + span)
    (acts : Act now (p.sight call) s) : ∃ w', Follows span now (p.put i call.start s) w' := by
  have inv := f.calls i call running
  cases acts with
  | readTransaction here =>
    have here : call.pc = .view := here
    refine ⟨w, f.goOn running (inv.read (by rw [here]; trivial) (by simp [here, Pc.Asked]) trivial
      (by simp [Pc.Asked]) (by simp)) .inr⟩
  | readPayout here => exact ⟨w, f.afterView running here⟩
  | findNothing here nothing => exact f.ask enough running lasts here nothing
  | findTransfer answer here known => exact ⟨w, f.report running answer known⟩
  | findFails retryable here => exact ⟨w, f.onError running (by simp)⟩
  | leave here settled => exact ⟨w, f.goOn running (inv.leave (.inl rfl)) False.elim⟩
  | claim here granted => exact f.claim enough running lasts here granted
  | claimFails here refused => exact ⟨w, f.goOn running (inv.leave (.inl rfl)) False.elim⟩
  | initiate here => exact f.initiate enough running lasts here
  | accept sent => exact f.decide enough running lasts sent .accepted .accept rfl
  | refuse sent => exact f.decide enough running lasts sent .refused .refuse rfl
  | respond answer here accepted known => exact ⟨w, f.report running answer known⟩
  | @reject submittedAt here refused =>
    refine ⟨w, f.onError running fun _ none => ⟨refused, ?_⟩⟩
    rw [show call.pc = _ from here, none]
  | lose here => exact ⟨w, f.onError running (by simp)⟩
  | failRejected here =>
    refine ⟨w, f.settled running ?_ (.inl rfl) fun _ => .inr (.inr (f.closed enough running lasts here))⟩
    unfold PayoutSubmission.fail
    split_ifs <;> rfl
  | settle answer here =>
    refine ⟨w, f.settled running (settle_submittedAt answer p.row) ?_ fun failed => ?_⟩
    · cases answer <;> simp [afterSettle]
    · rcases settle_failed failed with old | bad
      · exact .inl old
      · exact .inr (.inl ((inv.answered answer here).2 bad))
  | reverse here =>
    refine ⟨w, f.settled running ?_ (.inl rfl) fun failed => ?_⟩
    · unfold PayoutSubmission.reverse
      split_ifs <;> rfl
    · unfold PayoutSubmission.reverse at failed
      split_ifs at failed
      exact .inl failed
  | crash => exact ⟨w, f.goOn running (inv.leave (.inl rfl)) False.elim⟩

/-- What a new call preserves. -/
theorem Follows.begin (enough : 2 * span ≤ RESUBMIT_AFTER_MS) (f : Follows span now p w)
    (new : p.calls i = none) :
    ∃ w', Follows span now (p.put i now ⟨.view, none, p.row, p.transfers⟩) w' := by
  have step : Submission.Step RESUBMIT_AFTER_MS span w _ := .begin (f.new i new)
  refine ⟨_, f.window.step enough step, f.now, f.mark, f.accepted, fun j free => ?_,
    fun j call running => ?_, fun failed => ?_⟩
  · rcases eq_or_ne j i with rfl | other
    · simp [Payout.put] at free
    · exact (Function.update_of_ne other _ _).trans
        (f.new j (by simpa [Payout.put, other] using free))
  · rcases eq_or_ne j i with rfl | other
    · obtain rfl : _ = call := by simpa [Payout.put] using running
      exact ⟨fun _ => ⟨none, by simp [f.now], by simp [Pc.Asked]⟩, fun _ => rfl, by simp, by simp,
        by simp, by simp, by simp⟩
    · exact (f.calls j call (by simpa [Payout.put, other] using running)).mono other
        (Function.update_of_ne other _ _) (fun _ member _ => member) (fun _ mark => .inl mark) id id
  · obtain ⟨all, closed⟩ := f.failed failed
    refine ⟨all, fun nothing => ⟨(closed nothing).ended, ?_⟩⟩
    obtain ⟨t, mark, before⟩ := (closed nothing).marked
    refine ⟨t, mark, fun j call running saw => ?_⟩
    rcases eq_or_ne j i with rfl | other
    · obtain rfl : _ = call := by simpa [Payout.put] using running
      exact saw.elim
    · exact before j call (by simpa [Payout.put, other] using running) saw

theorem Follows.tick (enough : 2 * span ≤ RESUBMIT_AFTER_MS) (f : Follows span now p w)
    {later : Nat} (passed : now ≤ later) : ∃ w', Follows span later p w' := by
  have step : Submission.Step RESUBMIT_AFTER_MS span w { w with now := later } :=
    .tick (f.now.le.trans passed)
  refine ⟨_, f.window.step enough step, rfl, f.mark, f.accepted, f.new, fun i call running => ?_,
    fun failed => ?_⟩
  · have inv := f.calls i call running
    exact ⟨inv.waits, inv.unsent, inv.unseen, inv.granted, inv.sent, inv.rejected, inv.answered⟩
  · obtain ⟨all, closed⟩ := f.failed failed
    exact ⟨all, fun nothing => ⟨(closed nothing).ended, (closed nothing).marked⟩⟩

/-- In every run each payout follows its claim window. -/
theorem Reaches.follows (enough : 2 * span ≤ RESUBMIT_AFTER_MS)
    {c : Clocked Uuid (Payout ι)} (run : Reaches span (start now) c) (payout : Uuid) :
    ∃ w, Follows span c.now (c.object payout) w := by
  refine run.invariant (fun now p => ∃ w, Follows span now p w) ?_ ?_ ⟨_, .created now⟩
  · rintro now later p passed ⟨w, f⟩
    exact f.tick enough passed
  · rintro now p p' moved ⟨w, f⟩
    cases moved with
    | begin new => exact f.begin enough new
    | act running lasts acts => exact f.act enough running lasts acts

/-! ## Main results -/

/-- With calls that last less than half of `RESUBMIT_AFTER_MS`, a payout is accepted at most once,
and its hold is only released when the provider has reported whatever it accepted. -/
theorem payout_accepted_once (enough : 2 * span ≤ RESUBMIT_AFTER_MS)
    {c : Clocked Uuid (Payout ι)} (run : Reaches span (start now) c) (payout : Uuid) :
    (c.object payout).transfers.length ≤ 1 ∧
      ((c.object payout).row.status = .failed →
        ∀ transfer ∈ (c.object payout).transfers, transfer.reported) := by
  obtain ⟨w, f⟩ := run.follows enough payout
  exact ⟨f.accepted ▸ f.window.once, fun failed => (f.failed failed).1⟩

/-- A payout with one call that began at 0. -/
def oneCall (s : Sight) : Payout Unit := ⟨s.row, s.transfers, fun _ => some ⟨0, s.pc, s.request⟩⟩

theorem oneCall_act {s s' : Sight} (acts : Act 0 s s') :
    Payout.Move (RESUBMIT_AFTER_MS / 2) 0 (oneCall s) (oneCall s') :=
  have lasts : 0 < 0 + RESUBMIT_AFTER_MS / 2 := by decide
  .act (p := oneCall s) (i := ()) rfl lasts acts

/-- The payout above stays at its one transfer, and the failure was the provider's. -/
theorem payout_accepted_once_then_failed : ∃ c : Clocked Uuid (Payout Unit),
    Reaches (RESUBMIT_AFTER_MS / 2) (start 0) c ∧ (c.object 0).transfers = [⟨true⟩] ∧
      (c.object 0).row.status = .failed ∧ (c.object 0).transfers.length ≤ 1 ∧
      ((c.object 0).row.status = .failed →
        ∀ transfer ∈ (c.object 0).transfers, transfer.reported) := by
  have begun : Payout.Move (RESUBMIT_AFTER_MS / 2) 0 Payout.created
      (oneCall ⟨.view, none, ⟨.processing, none⟩, []⟩) := .begin (i := ()) rfl
  have acts : Relation.ReflTransGen (Act 0) ⟨.view, none, ⟨.processing, none⟩, []⟩
      ⟨.done, some .accepted, ⟨.failed, some 0⟩, [⟨true⟩]⟩ :=
    .head (.readTransaction rfl) (.head (.readPayout rfl) (.head (.claim rfl rfl)
      (.head (.initiate rfl) (.head (.accept rfl)
        (.head (.respond .failed rfl rfl (List.nil_append _).symm)
          (.single (.settle .failed rfl)))))))
  have moves := (acts.lift oneCall fun _ _ => oneCall_act).head begun
  have run : Reaches (RESUBMIT_AFTER_MS / 2) (start 0) _ :=
    Clocked.reaches_of_moves (c := start 0) (k := (0 : Uuid)) moves
  exact ⟨_, run, by simp [oneCall], by simp [oneCall], payout_accepted_once (by decide) run 0⟩

end Finstack.PayoutSubmission
