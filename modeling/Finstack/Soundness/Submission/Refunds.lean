import Finstack.Model.Submission.Refunds

/-! # When refunds are sent at most once

`submit` decides by the row it was handed, and claims on the row as it is. It follows the claim
window as long as the claim is only granted for a refund that is still processing, and to a call
whose row shows the earlier submission that the current row shows. A sweep that reaches a refund
with a row from before its first submission breaks this, and sends the refund a second time.
-/

namespace Finstack.RefundSubmission

open Foundation
open Foundation.Submission (Request)

variable {ι : Type} [DecidableEq ι] {span now : Nat}

/-- The claim is only granted while the refund is processing, and to a call that was handed the
earlier submission if there is one. -/
def UpToDate (now : Nat) (s : Sight) : Prop :=
  ∀ refund asked, s.pc = .noResult refund asked → (claimSubmission now s.row).isSome →
    s.row.status = .processing ∧ (s.row.submittedAt.isSome → refund.submittedAt.isSome)

/-- The provider has made at most one refund, nothing was sent for a settled one, and whoever sent
again was told that there is no refund when every earlier call was over. -/
structure SentOnce (span : Nat) (r : Refund ι) : Prop where
  refunds : r.refunds ≤ 1
  processing : ∀ send ∈ r.sends, send.status = .processing
  preceded : r.sends.Pairwise fun send earlier =>
    ∃ a, send.asked = some a ∧ earlier.start + span ≤ a

/-- A call that has not claimed the submission. -/
def Pc.Waits : Pc → Prop
  | .getRefund _ _ | .findRefund _ | .noResult _ _ => True
  | _ => False

/-- A call that has sent nothing. -/
def Pc.Unsent (pc : Pc) : Prop := pc.Waits ∨ ∃ refund asked, pc = .refundPayment refund asked

/-- A call that knows the provider's number of the refund. -/
def Pc.Knows : Pc → Prop
  | .getRefund _ _ | .answered _ _ _ | .settle _ => True
  | _ => False

/-- What a call of a refund knows. -/
structure CallInv (span : Nat) (w : Submission.State ι) (status : TransactionStatus)
    (refunds : Nat) (i : ι) (call : Call) : Prop where
  waits : call.pc.Waits → ∃ asked, w.waiting i = some ⟨call.start, asked⟩ ∧
    ∀ refund told, call.pc = .noResult refund told →
      asked = told ∧ (refund.submittedAt.isSome → told.isSome)
  unsent : call.pc.Unsent → call.request = none
  granted : ∀ refund asked, call.pc = .refundPayment refund asked → ∃ g ∈ w.grants, g.caller = i ∧
    g.start = call.start ∧ g.phase = .granted ∧ g.asked = asked ∧
    (w.now < call.start + span → status = .processing)
  sent : ∀ request, call.request = some request → ∃ g ∈ w.grants, g.caller = i ∧
    g.start = call.start ∧ g.phase = request.phase
  rejected : call.pc = .fail → call.request = some .refused
  knows : call.pc.Knows → 0 < refunds

/-- A refund and the claim window it follows. -/
structure Follows (span now : Nat) (r : Refund ι) (w : Submission.State ι) : Prop where
  window : Submission.Inv RESUBMIT_AFTER_MS span w
  now : w.now = now
  mark : w.mark = r.row.submittedAt
  accepted : w.accepted = r.refunds
  new : ∀ i, r.calls i = none → w.waiting i = none
  calls : ∀ i call, r.calls i = some call → CallInv span w r.row.status r.refunds i call
  known : ∀ version ∈ r.versions, version.providerRefundReference.isSome → 0 < r.refunds
  current : r.row.providerRefundReference.isSome → 0 < r.refunds
  sends : ∀ send ∈ r.sends, ∃ g ∈ w.grants, g.start = send.start ∧ g.phase ≠ .granted
  safe : SentOnce span r

omit [DecidableEq ι] in
theorem Follows.created (now : Nat) :
    Follows span now (Refund.created : Refund ι) (Submission.State.start now) where
  window := Submission.Inv.start now
  now := rfl
  mark := rfl
  accepted := rfl
  new := fun _ _ => rfl
  calls := by simp [Refund.created]
  known := by simp [Refund.created]
  current := by simp [Refund.created]
  sends := by simp [Refund.created]
  safe := ⟨by simp [Refund.created], by simp [Refund.created], List.Pairwise.nil⟩

variable {r : Refund ι} {w w' : Submission.State ι} {i : ι} {call : Call} {s : Sight}

omit [DecidableEq ι] in
/-- What another call's step leaves of what this call knows. -/
theorem CallInv.mono {status status' : TransactionStatus} {refunds refunds' : Nat} {j : ι}
    (inv : CallInv span w status refunds j call) (other : j ≠ i)
    (waiting : w'.waiting j = w.waiting j) (time : w.now ≤ w'.now)
    (grants : ∀ g ∈ w.grants, g.caller ≠ i → g ∈ w'.grants) (more : refunds ≤ refunds')
    (kept : ∀ g ∈ w.grants, g.caller ≠ i → g.phase = .granted → w.now < g.start + span →
      status = .processing → status' = .processing) :
    CallInv span w' status' refunds' j call where
  waits := by rw [waiting]; exact inv.waits
  unsent := inv.unsent
  granted refund asked here := by
    obtain ⟨g, member, caller, start, phase, told, processing⟩ := inv.granted refund asked here
    refine ⟨g, grants g member (caller ▸ other), caller, start, phase, told, fun lasts => ?_⟩
    have lasted := time.trans_lt lasts
    exact kept g member (caller ▸ other) phase (start ▸ lasted) (processing lasted)
  sent request here := by
    obtain ⟨g, member, caller, rest⟩ := inv.sent request here
    exact ⟨g, grants g member (caller ▸ other), caller, rest⟩
  rejected := inv.rejected
  knows here := (inv.knows here).trans_le more

/-- A refund after a step of one of its calls. -/
theorem Follows.put (f : Follows span now r w)
    (window : Submission.Inv RESUBMIT_AFTER_MS span w') (time : w'.now = now)
    (waiting : ∀ j, j ≠ i → w'.waiting j = w.waiting j)
    (grants : ∀ g ∈ w.grants, g.caller ≠ i → g ∈ w'.grants)
    (kept : ∀ g ∈ w.grants, g.caller ≠ i → g.phase = .granted → w.now < g.start + span →
      r.row.status = .processing → s.row.status = .processing)
    (more : r.refunds ≤ s.refunds) (marked : w'.mark = s.row.submittedAt)
    (accepted : w'.accepted = s.refunds)
    (known : s.row.providerRefundReference.isSome → 0 < s.refunds)
    (own : CallInv span w' s.row.status s.refunds i ⟨s.start, s.pc, s.request⟩)
    (sends : ∀ send ∈ s.sends, send.status = .processing ∧
      ∃ g ∈ w'.grants, g.start = send.start ∧ g.phase ≠ .granted)
    (preceded : s.sends.Pairwise fun send earlier =>
      ∃ a, send.asked = some a ∧ earlier.start + span ≤ a) :
    Follows span now (r.put i s) w' where
  window := window
  now := time
  mark := marked
  accepted := accepted
  new j free := by
    rcases eq_or_ne j i with rfl | other
    · simp [Refund.put] at free
    · rw [waiting j other]
      exact f.new j (by simpa [Refund.put, other] using free)
  calls j call' running' := by
    rcases eq_or_ne j i with rfl | other
    · obtain rfl : _ = call' := by simpa [Refund.put] using running'
      exact own
    · exact (f.calls j call' (by simpa [Refund.put, other] using running')).mono other
        (waiting j other) (f.now.trans time.symm).le grants more kept
  known version member := by
    rcases List.mem_cons.mp member with rfl | old
    · exact known
    · exact fun some => (f.known version old some).trans_le more
  current := known
  sends send member := (sends send member).2
  safe := ⟨accepted.symm.le.trans window.once, fun send member => (sends send member).1, preceded⟩

/-- A call goes on without anything being claimed, sent or accepted. -/
theorem Follows.goOn (f : Follows span now r w) {pc : Pc} {row : Row}
    (kept : ∀ g ∈ w.grants, g.caller ≠ i → g.phase = .granted → w.now < g.start + span →
      r.row.status = .processing → row.status = .processing)
    (marked : row.submittedAt = r.row.submittedAt)
    (known : row.providerRefundReference.isSome → 0 < r.refunds)
    (own : CallInv span w row.status r.refunds i { call with pc }) :
    Follows span now (r.put i { r.sight call with pc, row }) w :=
  f.put f.window f.now (fun _ _ => rfl) (fun _ member _ => member) kept le_rfl
    (f.mark.trans marked.symm) f.accepted known own
    (fun send member => ⟨f.safe.processing send member, f.sends send member⟩) f.safe.preceded

omit [DecidableEq ι] in
/-- A call that neither waits nor sends any more. -/
theorem CallInv.leave {status status' : TransactionStatus} {refunds : Nat}
    (inv : CallInv span w status refunds i call) {pc : Pc} (past : ¬ pc.Unsent)
    (rejected : pc = .fail → call.request = some .refused) (knows : pc.Knows → 0 < refunds) :
    CallInv span w status' refunds i { call with pc } where
  waits waits := (past (.inl waits)).elim
  unsent unsent := (past unsent).elim
  granted refund asked here := (past (.inr ⟨refund, asked, here⟩)).elim
  sent := inv.sent
  rejected := rejected
  knows := knows

/-! ## What a call does -/

/-- A call goes on with nothing but its place changed. -/
theorem Follows.leave (f : Follows span now r w) (running : r.calls i = some call) {pc : Pc}
    (past : ¬ pc.Unsent) (rejected : pc = .fail → call.request = some .refused)
    (knows : pc.Knows → 0 < r.refunds) :
    Follows span now (r.put i { r.sight call with pc }) w :=
  f.goOn (fun _ _ _ _ _ same => same) rfl f.current
    ((f.calls i call running).leave past rejected knows)

/-- The provider says that it has no refund. -/
theorem Follows.ask (enough : 2 * span ≤ RESUBMIT_AFTER_MS) (f : Follows span now r w)
    (running : r.calls i = some call) (lasts : now < call.start + span) {refund : Row}
    (here : call.pc = .findRefund refund) (nothing : r.refunds = 0) :
    ∃ w', Follows span now
      (r.put i { r.sight call with pc := .noResult refund (some now) }) w' := by
  have inv := f.calls i call running
  have waits : call.pc.Waits := by rw [here]; trivial
  obtain ⟨asked, waiting, -⟩ := inv.waits waits
  have step : Submission.Step RESUBMIT_AFTER_MS span w _ :=
    .ask waiting (f.now ▸ lasts) (f.accepted.trans nothing)
  refine ⟨_, f.put (f.window.step enough step) f.now (fun j other => Function.update_of_ne other _ _)
    (fun _ member _ => member) (fun _ _ _ _ _ same => same) le_rfl f.mark f.accepted f.current
    ⟨fun _ => ⟨some w.now, Function.update_self .., ?_⟩, fun _ => inv.unsent (.inl waits), by simp,
      inv.sent, by simp, False.elim⟩
    (fun send member => ⟨f.safe.processing send member, f.sends send member⟩) f.safe.preceded⟩
  rintro _ _ ⟨⟩
  exact ⟨congrArg some f.now, fun _ => rfl⟩

/-- A claim on a row that carries an earlier submission is that submission grown old. -/
theorem claimSubmission_granted {row row' : Row} (granted : claimSubmission now row = some row') :
    row' = { row with submittedAt := some now } ∧
      ∀ t, row.submittedAt = some t → t + RESUBMIT_AFTER_MS < now := by
  unfold claimSubmission at granted
  cases marked : row.submittedAt with
  | none =>
    simp only [marked] at granted
    exact ⟨(Option.some.inj granted).symm, by simp⟩
  | some t =>
    simp only [marked] at granted
    split_ifs at granted with old
    exact ⟨(Option.some.inj granted).symm, by simpa using old⟩

/-- The submission is claimed. -/
theorem Follows.claim (enough : 2 * span ≤ RESUBMIT_AFTER_MS) (f : Follows span now r w)
    (running : r.calls i = some call) (lasts : now < call.start + span) {refund row : Row}
    {asked : Option Nat} (here : call.pc = .noResult refund asked)
    (granted : claimSubmission now r.row = some row) (admits : UpToDate now (r.sight call)) :
    ∃ w', Follows span now
      (r.put i { r.sight call with pc := .refundPayment refund asked, row }) w' := by
  have grantable : (claimSubmission now r.row).isSome := by rw [granted]; rfl
  obtain ⟨processing, seen⟩ := admits refund asked here grantable
  obtain ⟨rfl, old⟩ := claimSubmission_granted granted
  have inv := f.calls i call running
  have waits : call.pc.Waits := by rw [here]; trivial
  obtain ⟨asked', waiting, told⟩ := inv.waits waits
  obtain ⟨rfl, asks⟩ := told refund asked here
  have free : ∀ t, w.mark = some t → t + RESUBMIT_AFTER_MS < w.now ∧ asked' ≠ none := by
    intro t marked
    rw [f.mark] at marked
    have carries : r.row.submittedAt.isSome := by rw [marked]; rfl
    exact ⟨f.now ▸ old t marked, Option.isSome_iff_ne_none.mp (asks (seen carries))⟩
  have step : Submission.Step RESUBMIT_AFTER_MS span w _ := .grant waiting (f.now ▸ lasts) free
  refine ⟨_, f.put (f.window.step enough step) f.now (fun j other => Function.update_of_ne other _ _)
    (fun g member _ => List.mem_cons_of_mem _ member) (fun _ _ _ _ _ same => same) le_rfl
    (congrArg some f.now) (Eq.trans (by simp [Submission.State.accepted]) f.accepted) f.current
    ⟨False.elim, fun _ => inv.unsent (.inl waits), ?_, ?_, by simp, False.elim⟩ (fun send member => ?_)
    f.safe.preceded⟩
  · rintro _ _ ⟨⟩
    exact ⟨_, List.mem_cons_self, rfl, rfl, rfl, rfl, fun _ => processing⟩
  · intro request here'
    obtain ⟨g, member, rest⟩ := inv.sent request here'
    exact ⟨g, List.mem_cons_of_mem _ member, rest⟩
  · obtain ⟨g, there, rest⟩ := f.sends send member
    exact ⟨f.safe.processing send member, g, List.mem_cons_of_mem _ there, rest⟩

omit [DecidableEq ι] in
/-- What has been sent stays on record when a request comes one step further. -/
theorem sends_kept {g : Submission.Grant ι} {phase : Submission.Phase}
    (next : g.phase.Next phase) (moved : { g with phase } ∈ w'.grants)
    (others : ∀ e ∈ w.grants, e ≠ g → e ∈ w'.grants) {begun : Nat}
    (sent : ∃ e ∈ w.grants, e.start = begun ∧ e.phase ≠ .granted) :
    ∃ e ∈ w'.grants, e.start = begun ∧ e.phase ≠ .granted := by
  obtain ⟨e, member, start, past⟩ := sent
  by_cases same : e = g
  · subst same
    exact ⟨_, moved, start, next.ne_granted⟩
  · exact ⟨e, others e member same, start, past⟩

/-- The provider decides about a request. -/
theorem Follows.decide (enough : 2 * span ≤ RESUBMIT_AFTER_MS) (f : Follows span now r w)
    (running : r.calls i = some call) (lasts : now < call.start + span)
    (sent : call.request = some .inFlight) (request : Request)
    (next : Submission.Phase.Next .sent request.phase) {refunds : Nat}
    (made : refunds = r.refunds + if request.phase = .accepted then 1 else 0) :
    ∃ w', Follows span now
      (r.put i { r.sight call with request := some request, refunds }) w' := by
  have inv := f.calls i call running
  obtain ⟨g, member, caller, start, phase⟩ := inv.sent _ sent
  have onward : g.phase.Next request.phase := by rw [show g.phase = .sent from phase]; exact next
  obtain ⟨w', step, time, waiting, mark, accepted, moved, kept⟩ :=
    Submission.Step.exists_move member (by rw [start, f.now]; exact lasts) onward
  have more : r.refunds ≤ refunds := made ▸ Nat.le_add_right _ _
  have past : ¬ call.pc.Unsent := by
    intro unsent
    cases (inv.unsent unsent).symm.trans sent
  refine ⟨w', f.put (f.window.step enough step) (time.trans f.now) (fun j _ => congrFun waiting j)
    (fun e there other => kept e there fun same => other (same ▸ caller))
    (fun _ _ _ _ _ same => same) more (mark.trans f.mark) (by rw [accepted, f.accepted, made])
    (fun some => (f.current some).trans_le more)
    ⟨fun waits => (past (.inl waits)).elim, fun unsent => (past unsent).elim,
      fun refund asked here => (past (.inr ⟨refund, asked, here⟩)).elim, ?_, fun here => ?_,
      fun knows => (inv.knows knows).trans_le more⟩
    (fun send sent => ⟨f.safe.processing send sent, sends_kept onward moved kept (f.sends send sent)⟩)
    f.safe.preceded⟩
  · rintro _ ⟨⟩
    exact ⟨_, moved, caller, start, rfl⟩
  · cases sent.symm.trans (inv.rejected here)

/-- The request is sent: the refund is still processing, and nobody else can be sending. -/
theorem Follows.refundPayment (enough : 2 * span ≤ RESUBMIT_AFTER_MS) (f : Follows span now r w)
    (running : r.calls i = some call) (lasts : now < call.start + span) {refund : Row}
    {asked : Option Nat} (here : call.pc = .refundPayment refund asked) :
    ∃ w', Follows span now (r.put i { r.sight call with
      pc := .awaiting refund
      request := some .inFlight
      sends := ⟨call.start, asked, r.row.status⟩ :: r.sends }) w' := by
  have inv := f.calls i call running
  obtain ⟨g, member, caller, start, phase, rfl, processing⟩ := inv.granted _ _ here
  have lasting : w.now < g.start + span := by rw [start, f.now]; exact lasts
  have onward : g.phase.Next .sent := by rw [phase]; exact .send
  obtain ⟨later, earlier, list⟩ := List.append_of_mem member
  obtain rfl := f.window.latest enough list lasting
  obtain ⟨w', step, time, waiting, mark, accepted, moved, kept⟩ :=
    Submission.Step.exists_move member lasting onward
  refine ⟨w', f.put (f.window.step enough step) (time.trans f.now) (fun j _ => congrFun waiting j)
    (fun e there other => kept e there fun same => other (same ▸ caller))
    (fun _ _ _ _ _ same => same) le_rfl (mark.trans f.mark) (accepted.trans f.accepted) f.current
    ⟨False.elim, by simp [Pc.Unsent, Pc.Waits], by simp, ?_, by simp, False.elim⟩
    (fun send sent => ?_) (List.pairwise_cons.mpr ⟨fun send sent => ?_, f.safe.preceded⟩)⟩
  · rintro _ ⟨⟩
    exact ⟨_, moved, caller, start, rfl⟩
  · rcases List.mem_cons.mp sent with rfl | old
    · exact ⟨processing (start ▸ lasting), _, moved, start, by simp⟩
    · exact ⟨f.safe.processing send old, sends_kept onward moved kept (f.sends send old)⟩
  · obtain ⟨e, there, began, past⟩ := f.sends send sent
    have before : e ∈ earlier := by
      rw [list] at there
      rcases List.mem_cons.mp there with rfl | before
      · exact (past phase).elim
      · exact before
    obtain ⟨a, told, ended⟩ := f.window.preceded enough list (List.ne_nil_of_mem before)
    exact ⟨a, told, began ▸ ended e before⟩

omit [DecidableEq ι] in
/-- Nothing else can settle a refund while a claimed submission is still to be sent. -/
theorem Follows.unsettled (enough : 2 * span ≤ RESUBMIT_AFTER_MS) (f : Follows span now r w)
    {g : Submission.Grant ι} (member : g ∈ w.grants) (phase : g.phase = .granted)
    (lasts : w.now < g.start + span) : r.refunds = 0 := by
  obtain ⟨later, earlier, list⟩ := List.append_of_mem member
  obtain rfl := f.window.latest enough list lasts
  exact f.accepted.symm.trans (f.window.fresh g earlier list (by rw [phase]; rfl))

omit [DecidableEq ι] in
/-- Two calls cannot both have been granted a submission while both last. -/
theorem Follows.alone (enough : 2 * span ≤ RESUBMIT_AFTER_MS) (f : Follows span now r w)
    {g e : Submission.Grant ι} (mine : g ∈ w.grants) (lasts : w.now < g.start + span)
    (theirs : e ∈ w.grants) (lasts' : w.now < e.start + span) : e = g := by
  obtain ⟨later, earlier, list⟩ := List.append_of_mem mine
  obtain rfl := f.window.latest enough list lasts
  obtain ⟨later', earlier', list'⟩ := List.append_of_mem theirs
  obtain rfl := f.window.latest enough list' lasts'
  exact (List.cons.inj (list'.symm.trans list)).1

theorem fail_submittedAt (row : Row) : (fail row).submittedAt = row.submittedAt := by
  unfold fail
  split_ifs <;> rfl

theorem fail_reference (row : Row) :
    (fail row).providerRefundReference = row.providerRefundReference := by
  unfold fail
  split_ifs <;> rfl

/-- A call whose request was rejected fails the refund. -/
theorem Follows.failRejected (enough : 2 * span ≤ RESUBMIT_AFTER_MS) (f : Follows span now r w)
    (running : r.calls i = some call) (lasts : now < call.start + span) (here : call.pc = .fail) :
    Follows span now (r.put i { r.sight call with pc := .done, row := fail r.row }) w := by
  have inv := f.calls i call running
  obtain ⟨g, member, caller, start, phase⟩ := inv.sent _ (inv.rejected here)
  refine f.goOn (fun e there other granted lasting _ => ?_) (fail_submittedAt _)
    (by rw [fail_reference]; exact f.current)
    (inv.leave (by simp [Pc.Unsent, Pc.Waits]) (by simp) False.elim)
  obtain rfl := f.alone enough member (by rw [start, f.now]; exact lasts) there lasting
  exact (other caller).elim

theorem settle_submittedAt (status : RefundStatus) (row : Row) :
    (settle status row).submittedAt = row.submittedAt := by
  cases status <;> simp only [settle, complete, fail] <;> split_ifs <;> rfl

/-- What one step of a call preserves. -/
theorem Follows.act (enough : 2 * span ≤ RESUBMIT_AFTER_MS) (f : Follows span now r w)
    (running : r.calls i = some call) (lasts : now < call.start + span)
    (admits : UpToDate now (r.sight call)) (acts : Act now (r.sight call) s) :
    ∃ w', Follows span now (r.put i s) w' := by
  have inv := f.calls i call running
  cases acts with
  | getRefund status here =>
    have here : call.pc = .getRefund _ _ := here
    exact ⟨w, f.leave running (by simp [Pc.Unsent, Pc.Waits]) (by simp)
      fun _ => inv.knows (by rw [here]; trivial)⟩
  | findNothing here nothing => exact f.ask enough running lasts here nothing
  | findOurs status here known =>
    exact ⟨w, f.leave running (by simp [Pc.Unsent, Pc.Waits]) (by simp)
      fun _ => Nat.zero_lt_of_lt known⟩
  | claim here granted => exact f.claim enough running lasts here granted admits
  | claimFails here refused =>
    exact ⟨w, f.leave running (by simp [Pc.Unsent, Pc.Waits]) (by simp) False.elim⟩
  | refundPayment here => exact f.refundPayment enough running lasts here
  | accept sent => exact f.decide enough running lasts sent .accepted .accept rfl
  | refuse sent => exact f.decide enough running lasts sent .refused .refuse rfl
  | respond status here accepted known =>
    exact ⟨w, f.leave running (by simp [Pc.Unsent, Pc.Waits]) (by simp)
      fun _ => Nat.zero_lt_of_lt known⟩
  | reject here refused =>
    exact ⟨w, f.leave running (by simp [Pc.Unsent, Pc.Waits]) (fun _ => refused) False.elim⟩
  | failRejected here => exact ⟨w, f.failRejected enough running lasts here⟩
  | record here =>
    have here : call.pc = .answered _ _ _ := here
    have known : 0 < r.refunds := inv.knows (by rw [here]; trivial)
    refine ⟨w, f.goOn (fun _ _ _ _ _ same => ?_) ?_ (fun _ => known)
      (inv.leave (by simp [Pc.Unsent, Pc.Waits]) (by simp) fun _ => known)⟩ <;>
    · unfold RefundSubmission.record
      split_ifs <;> first | rfl | exact same
  | @settle status here =>
    have here : call.pc = .settle _ := here
    have known : 0 < r.refunds := inv.knows (by rw [here]; trivial)
    refine ⟨w, f.goOn (fun g member _ granted lasting _ => ?_) (settle_submittedAt status r.row)
      (fun _ => known) (inv.leave (by simp [Pc.Unsent, Pc.Waits]) (by simp) False.elim)⟩
    have none := f.unsettled enough member granted lasting
    omega
  | stop => exact ⟨w, f.leave running (by simp [Pc.Unsent, Pc.Waits]) (by simp) False.elim⟩

/-- A row decides how a call begins. -/
theorem submit_cases (refund : Row) :
    (∃ reference, refund.providerRefundReference = some reference ∧
      submit refund = .getRefund refund reference) ∨
    submit refund = .findRefund refund ∨
    refund.submittedAt.isSome = false ∧ submit refund = .noResult refund none := by
  unfold submit
  cases known : refund.providerRefundReference with
  | some reference => exact .inl ⟨reference, rfl, rfl⟩
  | none =>
    dsimp only
    split_ifs with sent
    · exact .inr (.inl rfl)
    · exact .inr (.inr ⟨by simpa using sent, rfl⟩)

/-- What a new call preserves. -/
theorem Follows.begin (enough : 2 * span ≤ RESUBMIT_AFTER_MS) (f : Follows span now r w)
    {refund : Row} (new : r.calls i = none) (read : refund ∈ r.versions) :
    ∃ w', Follows span now (r.put i ⟨now, submit refund, none, r.row, r.refunds, r.sends⟩) w' := by
  have step : Submission.Step RESUBMIT_AFTER_MS span w _ := .begin (f.new i new)
  have waiting : Function.update w.waiting i (some ⟨w.now, none⟩) i = some ⟨now, none⟩ := by
    rw [Function.update_self, f.now]
  have own : CallInv span { w with waiting := Function.update w.waiting i (some ⟨w.now, none⟩) }
      r.row.status r.refunds i ⟨now, submit refund, none⟩ := by
    rcases submit_cases refund with ⟨reference, known, here⟩ | here | ⟨unsent, here⟩ <;> rw [here]
    · exact ⟨fun _ => ⟨none, waiting, by simp⟩, fun _ => rfl, by simp, by simp, by simp,
        fun _ => f.known refund read (by rw [known]; rfl)⟩
    · exact ⟨fun _ => ⟨none, waiting, by simp⟩, fun _ => rfl, by simp, by simp, by simp, False.elim⟩
    · refine ⟨fun _ => ⟨none, waiting, ?_⟩, fun _ => rfl, by simp, by simp, by simp, False.elim⟩
      rintro _ _ ⟨⟩
      exact ⟨rfl, by simp [unsent]⟩
  exact ⟨_, f.put (f.window.step enough step) f.now (fun j other => Function.update_of_ne other _ _)
    (fun _ member _ => member) (fun _ _ _ _ _ same => same) le_rfl f.mark f.accepted f.current own
    (fun send member => ⟨f.safe.processing send member, f.sends send member⟩) f.safe.preceded⟩

theorem Follows.tick (enough : 2 * span ≤ RESUBMIT_AFTER_MS) (f : Follows span now r w)
    {later : Nat} (passed : now ≤ later) : ∃ w', Follows span later r w' := by
  have step : Submission.Step RESUBMIT_AFTER_MS span w { w with now := later } :=
    .tick (f.now.le.trans passed)
  refine ⟨_, f.window.step enough step, rfl, f.mark, f.accepted, f.new, fun i call running => ?_,
    f.known, f.current, f.sends, f.safe⟩
  have inv := f.calls i call running
  refine ⟨inv.waits, inv.unsent, fun refund asked here => ?_, inv.sent, inv.rejected, inv.knows⟩
  obtain ⟨g, member, caller, start, phase, told, processing⟩ := inv.granted refund asked here
  exact ⟨g, member, caller, start, phase, told,
    fun lasts => processing ((f.now.le.trans passed).trans_lt lasts)⟩

/-! ## Main results -/

/-- With calls that last less than half of `RESUBMIT_AFTER_MS`, and with a claim that is only
granted to calls that are up to date, a refund is sent at most once. -/
theorem refund_sentOnce_of_upToDate (enough : 2 * span ≤ RESUBMIT_AFTER_MS)
    {c : Clocked Uuid (Refund ι)} (run : Reaches UpToDate span (start now) c) (refund : Uuid) :
    SentOnce span (c.object refund) := by
  obtain ⟨w, f⟩ := run.invariant (fun now r => ∃ w, Follows span now r w)
    (fun now later r passed ⟨w, f⟩ => f.tick enough passed)
    (fun now r r' moved ⟨w, f⟩ => by
      cases moved with
      | begin new read => exact f.begin enough new read
      | act running lasts admits acts => exact f.act enough running lasts admits acts)
    (k := refund) ⟨_, .created now⟩
  exact f.safe

theorem Act.start {s s' : Sight} (act : Act now s s') : s'.start = s.start := by
  cases act <;> rfl

/-- A call takes several steps while nobody else does. -/
theorem moves_of_acts {Admits : Nat → Sight → Prop} (running : r.calls i = some call)
    (lasts : now < call.start + span)
    (acts : Relation.ReflTransGen (fun s s' => Admits now s ∧ Act now s s') (r.sight call) s) :
    ∃ r', Relation.ReflTransGen (Refund.Move Admits span now) r r' ∧
      r'.calls = Function.update r.calls i (some ⟨s.start, s.pc, s.request⟩) ∧
      r.versions ⊆ r'.versions ∧ r'.sight ⟨s.start, s.pc, s.request⟩ = s ∧
      s.start = call.start := by
  induction acts with
  | refl =>
    exact ⟨r, .refl, (Function.update_eq_self_iff.mpr running.symm).symm, fun _ same => same, rfl, rfl⟩
  | @tail s s' _ step ih =>
    obtain ⟨r', moves, calls, versions, sight, start⟩ := ih
    have running' : r'.calls i = some ⟨s.start, s.pc, s.request⟩ := by
      rw [calls, Function.update_self]
    refine ⟨_, moves.tail (.act running' (by rw [start]; exact lasts) (sight ▸ step.1)
      (sight ▸ step.2)), ?_, fun v old => List.mem_cons_of_mem _ (versions old), rfl,
      step.2.start.trans start⟩
    simp [Refund.put, calls]

/-- A call that was handed the refund as it was created sends it, and the provider makes it. -/
theorem moves_accepted (Admits : Nat → Sight → Prop) (now : Nat) (i : ι) (row : Row)
    (positive : 0 < span) (new : r.calls i = none)
    (read : ⟨.processing, none, none⟩ ∈ r.versions)
    (granted : claimSubmission now r.row = some row)
    (admits : Admits now ⟨now, .noResult ⟨.processing, none, none⟩ none, none, r.row, r.refunds,
      r.sends⟩)
    (others : ∀ s, (∀ refund asked, s.pc ≠ .noResult refund asked) → Admits now s) :
    ∃ r', Relation.ReflTransGen (Refund.Move Admits span now) r r' ∧ r'.row = row ∧
      r'.refunds = r.refunds + 1 ∧ r.versions ⊆ r'.versions ∧
      ∀ j, j ≠ i → r'.calls j = r.calls j := by
  have acts : Relation.ReflTransGen (fun s s' => Admits now s ∧ Act now s s')
      ⟨now, .noResult ⟨.processing, none, none⟩ none, none, r.row, r.refunds, r.sends⟩
      ⟨now, .done, some .accepted, row, r.refunds + 1, ⟨now, none, row.status⟩ :: r.sends⟩ :=
    .head ⟨admits, .claim rfl granted⟩ (.head ⟨others _ (by simp), .refundPayment rfl⟩
      (.head ⟨others _ (by simp), .accept rfl⟩ (.single ⟨others _ (by simp), .stop⟩)))
  have begun : Refund.Move Admits span now r _ := .begin new read
  have running : (r.put i ⟨now, .noResult ⟨.processing, none, none⟩ none, none, r.row, r.refunds,
      r.sends⟩).calls i = some ⟨now, .noResult ⟨.processing, none, none⟩ none, none⟩ :=
    Function.update_self ..
  obtain ⟨r', moves, calls, versions, sight, -⟩ :=
    moves_of_acts running (Nat.lt_add_of_pos_right positive) acts
  refine ⟨r', moves.head begun, congrArg Sight.row sight, congrArg Sight.refunds sight,
    fun v old => versions (List.mem_cons_of_mem _ old), fun j other => ?_⟩
  rw [calls, Function.update_of_ne other]
  exact Function.update_of_ne other _ _

/-- A refund that is sent once. -/
theorem refund_sentOnce_after_request : ∃ c : Clocked Uuid (Refund (Fin 2)),
    Reaches UpToDate (RESUBMIT_AFTER_MS / 2) (start 0) c ∧ (c.object 0).refunds = 1 ∧
      SentOnce (RESUBMIT_AFTER_MS / 2) (c.object 0) := by
  have positive : 0 < RESUBMIT_AFTER_MS / 2 := by decide
  have new : (Refund.created : Refund (Fin 2)).calls 0 = none := rfl
  obtain ⟨r, moves, -, refunds, -⟩ := moves_accepted UpToDate 0 0 ⟨.processing, some 0, none⟩ positive
    new List.mem_cons_self rfl (fun _ _ _ _ => ⟨rfl, by simp [Refund.created]⟩)
    fun s settled refund asked here => (settled refund asked here).elim
  have run : Reaches UpToDate (RESUBMIT_AFTER_MS / 2) (start 0) _ :=
    Clocked.reaches_of_moves (c := start 0) (k := (0 : Uuid)) moves
  refine ⟨_, run, ?_, refund_sentOnce_of_upToDate (by decide) run 0⟩
  simpa [Refund.created] using refunds

/-- A retry sends the refund and its response is lost. A sweep that had read the refund before
reaches it five minutes later, and sends it again. -/
theorem refund_sent_twice : ¬ ∀ c : Clocked Uuid (Refund (Fin 2)),
    Reaches (fun _ _ => True) (RESUBMIT_AFTER_MS / 2) (start 0) c →
      ∀ refund, SentOnce (RESUBMIT_AFTER_MS / 2) (c.object refund) := by
  intro once
  have positive : 0 < RESUBMIT_AFTER_MS / 2 := by decide
  have new : (Refund.created : Refund (Fin 2)).calls 0 = none := rfl
  obtain ⟨r, moves, row, refunds, versions, calls⟩ := moves_accepted (fun _ _ => True) 0 0
    ⟨.processing, some 0, none⟩ positive new List.mem_cons_self rfl trivial fun _ _ => trivial
  obtain ⟨r', moves', -, refunds', -⟩ := moves_accepted (fun _ _ => True) (RESUBMIT_AFTER_MS + 1) 1
    ⟨.processing, some (RESUBMIT_AFTER_MS + 1), none⟩ positive (calls 1 (by decide))
    (versions List.mem_cons_self) (by rw [row]; rfl) trivial fun _ _ => trivial
  have first : Reaches (fun _ _ => True) (RESUBMIT_AFTER_MS / 2) (start 0) _ :=
    Clocked.reaches_of_moves (c := start 0) (k := (0 : Uuid)) moves
  have waited := first.tail (.tick (Nat.zero_le (RESUBMIT_AFTER_MS + 1)))
  have second := waited.trans (Clocked.reaches_of_moves (k := (0 : Uuid)) (by simpa using moves'))
  have one := (once _ second 0).refunds
  simp [refunds', refunds, Refund.created] at one

end Finstack.RefundSubmission
