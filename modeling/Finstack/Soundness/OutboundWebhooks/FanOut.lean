import Finstack.Model.OutboundWebhooks.FanOut
import Mathlib.Data.Fintype.Basic
import Mathlib.Data.List.Nodup

/-! # One delivery, and its job

The unique index keeps one delivery for each endpoint and event in every run. That a delivery gets
its job is up to the attempt that inserted it: whoever finds the delivery there goes on without
adding one. An attempt that returns has seen to every endpoint it selected, as long as no attempt
finds a delivery between its insert and its job.
-/

namespace Finstack.OutboundWebhooks

open Foundation

variable {δ ι : Type} [DecidableEq ι]

namespace System

variable {s s' : System δ ι} {i : ι} {event : DomainEventMessage δ} {pc : Pc} {id : Uuid}
  {selected remaining : List WebhookEndpoint} {pending : Option Uuid}

/-- Each endpoint has at most one delivery of an event. -/
def OneDelivery (s : System δ ι) : Prop :=
  (s.deliveries.map fun delivery => (delivery.endpointId, delivery.eventId)).Nodup

/-- The endpoint's delivery of the event is there, and its job was added, unless it is `pending`. -/
def Delivers (s : System δ ι) (pending : Option Uuid) (event : DomainEventMessage δ)
    (endpoint : WebhookEndpoint) : Prop :=
  ∃ delivery ∈ s.deliveries, delivery.endpointId = endpoint.id ∧
    delivery.eventId = event.eventId ∧ (delivery.id ∈ s.enqueued ∨ pending = some delivery.id)

/-- Every selected endpoint that does not remain has its delivery. -/
def Settled (s : System δ ι) (pending : Option Uuid) (event : DomainEventMessage δ)
    (selected remaining : List WebhookEndpoint) : Prop :=
  ∀ endpoint ∈ selected, endpoint ∈ remaining ∨ s.Delivers pending event endpoint

/-- Deliveries stay, with their ids, and so do their jobs. -/
structure Grows (s s' : System δ ι) : Prop where
  deliveries : ∀ delivery ∈ s.deliveries, ∃ delivery' ∈ s'.deliveries,
    delivery'.id = delivery.id ∧ delivery'.endpointId = delivery.endpointId ∧
      delivery'.eventId = delivery.eventId
  enqueued : ∀ id ∈ s.enqueued, id ∈ s'.enqueued

omit [DecidableEq ι] in
theorem Grows.refl (s : System δ ι) : s.Grows s :=
  ⟨fun delivery member => ⟨delivery, member, rfl, rfl, rfl⟩, fun _ member => member⟩

omit [DecidableEq ι] in
theorem Delivers.grows {endpoint : WebhookEndpoint} (delivers : s.Delivers pending event endpoint)
    (grows : s.Grows s') : s'.Delivers pending event endpoint := by
  obtain ⟨delivery, member, endpointId, eventId, queued⟩ := delivers
  obtain ⟨delivery', member', same, endpointId', eventId'⟩ := grows.deliveries delivery member
  refine ⟨delivery', member', endpointId'.trans endpointId, eventId'.trans eventId, ?_⟩
  rw [same]
  exact queued.imp_left (grows.enqueued _)

omit [DecidableEq ι] in
theorem Settled.grows (settled : s.Settled pending event selected remaining)
    (grows : s.Grows s') : s'.Settled pending event selected remaining :=
  fun endpoint member => (settled endpoint member).imp_right fun delivers => delivers.grows grows

end System

/-- A delivery that the next insert finds has its job. -/
def Pc.FindsEnqueued (s : System δ ι) (event : DomainEventMessage δ) : Pc → Prop
  | .fanningOut _ (endpoint :: _) _ =>
    ∀ delivery ∈ s.findDelivery endpoint.id event.eventId, delivery.id ∈ s.enqueued
  | _ => True

instance (s : System δ ι) (event : DomainEventMessage δ) :
    ∀ pc : Pc, Decidable (pc.FindsEnqueued s event)
  | .fanningOut _ (endpoint :: _) _ => inferInstanceAs (Decidable
      (∀ delivery ∈ s.findDelivery endpoint.id event.eventId, delivery.id ∈ s.enqueued))
  | .fanningOut _ [] _ | .selecting | .enqueueing _ _ _ _ | .returned _ _ | .threw | .crashed =>
    .isTrue trivial

/-- What an attempt has seen to. -/
def Pc.Holds (s : System δ ι) (event : DomainEventMessage δ) : Pc → Prop
  | .fanningOut selected remaining _ => s.Settled none event selected remaining
  | .enqueueing deliveryId selected remaining _ =>
    s.Settled (some deliveryId) event selected remaining
  | .returned selected _ => s.Settled none event selected []
  | _ => True

omit [DecidableEq ι] in
theorem Pc.Holds.grows {s s' : System δ ι} {event : DomainEventMessage δ} {pc : Pc}
    (holds : pc.Holds s event) (grows : s.Grows s') : pc.Holds s' event := by
  cases pc with
  | fanningOut selected remaining created => exact System.Settled.grows holds grows
  | enqueueing deliveryId selected remaining created => exact System.Settled.grows holds grows
  | returned selected created => exact System.Settled.grows holds grows
  | selecting | threw | crashed => trivial

namespace System

variable {s s' : System δ ι} {i : ι} {event : DomainEventMessage δ} {pc : Pc} {id : Uuid}
  {selected remaining : List WebhookEndpoint} {pending : Option Uuid}

/-- What a step does, and from where. -/
inductive Effect (s : System δ ι) : Action δ ι → System δ ι → Prop
  /-- An attempt begins, fails or has nothing to do. -/
  | idle {action : Action δ ι} {i : ι} {event : DomainEventMessage δ} {pc : Pc}
      (pc_idle : pc = .selecting ∨ pc = .threw ∨ pc = .crashed ∨ pc = .returned [] 0) :
      Effect s action (s.goto i event pc)
  | selects {i : ι} {event : DomainEventMessage δ} (endpoints : List WebhookEndpoint) :
      Effect s (.advance i) (s.goto i event (.fanningOut endpoints endpoints 0))
  | returns {i : ι} {event : DomainEventMessage δ} {selected : List WebhookEndpoint} {created : Nat}
      (here : s.attempts i = some (event, .fanningOut selected [] created)) :
      Effect s (.advance i) (s.goto i event (.returned selected created))
  | finds {i : ι} {id : Uuid} {event : DomainEventMessage δ} {endpoint : WebhookEndpoint}
      {selected remaining : List WebhookEndpoint} {created : Nat} {delivery : WebhookDelivery δ}
      (here : s.attempts i = some (event, .fanningOut selected (endpoint :: remaining) created))
      (found : s.findDelivery endpoint.id event.eventId = some delivery) :
      Effect s (.insert i id) (s.goto i event (.fanningOut selected remaining created))
  | inserts {i : ι} {id : Uuid} {event : DomainEventMessage δ} {endpoint : WebhookEndpoint}
      {selected remaining : List WebhookEndpoint} {created : Nat}
      (here : s.attempts i = some (event, .fanningOut selected (endpoint :: remaining) created))
      (absent : s.findDelivery endpoint.id event.eventId = none) :
      Effect s (.insert i id) { s.goto i event (.enqueueing id selected remaining created) with
        deliveries := s.deliveries ++ [newDelivery id endpoint event] }
  | enqueues {i : ι} {event : DomainEventMessage δ} {deliveryId : Uuid}
      {selected remaining : List WebhookEndpoint} {created : Nat} {added answered : Bool}
      (here : s.attempts i = some (event, .enqueueing deliveryId selected remaining created)) :
      Effect s (.enqueue i added answered)
        { s.goto i event (.fanningOut selected remaining (created + 1)) with
          enqueued := deliveryId :: s.enqueued }
  | loses {i : ι} {event : DomainEventMessage δ} {deliveryId : Uuid} {added answered : Bool} :
      Effect s (.enqueue i added answered)
        { s.goto i event .threw with enqueued := deliveryId :: s.enqueued }
  | changes {endpoints : List WebhookEndpoint} :
      Effect s (.changeEndpoints endpoints) { s with endpoints := endpoints }
  | delivers {deliveryId : Uuid} {status : WebhookDeliveryStatus} {attempts : Nat} :
      Effect s (.deliver deliveryId status attempts) { s with
        deliveries := s.deliveries.map fun delivery =>
          if delivery.id = deliveryId then { delivery with status, attempts } else delivery }

theorem effect_of_step {action : Action δ ι} (stepped : step action s = some s') :
    Effect s action s' := by
  cases action with
  | attempt i event =>
    simp only [System.step] at stepped
    split_ifs at stepped
    cases stepped
    exact .idle (.inl rfl)
  | advance i =>
    obtain ⟨⟨event, pc⟩, here, advances⟩ := Option.bind_eq_some_iff.mp stepped
    cases pc with
    | selecting =>
      simp only [System.advance] at advances
      split at advances
      · cases advances
        exact .idle (by simp)
      · split_ifs at advances <;> cases advances
        · exact .selects _
        · exact .idle (by simp)
    | fanningOut selected remaining created =>
      cases remaining <;> cases advances
      exact .returns here
    | enqueueing | returned | threw | crashed => cases advances
  | insert i id =>
    obtain ⟨⟨event, pc⟩, here, inserts⟩ := Option.bind_eq_some_iff.mp stepped
    cases pc with
    | fanningOut selected remaining created =>
      cases remaining with
      | nil => cases inserts
      | cons endpoint remaining =>
        simp only [System.insert] at inserts
        split_ifs at inserts with used there <;> cases inserts
        · obtain ⟨delivery, found⟩ := Option.isSome_iff_exists.mp there
          exact .finds here found
        · exact .inserts here (by simpa using there)
    | selecting | enqueueing | returned | threw | crashed => cases inserts
  | enqueue i added answered =>
    obtain ⟨⟨event, pc⟩, here, adds⟩ := Option.bind_eq_some_iff.mp stepped
    cases pc with
    | enqueueing deliveryId selected remaining created =>
      cases added <;> cases answered <;> cases adds
      · exact .idle (by simp)
      · exact .idle (by simp)
      · exact .loses
      · exact .enqueues here
    | selecting | fanningOut | returned | threw | crashed => cases adds
  | databaseFails i =>
    obtain ⟨⟨event, pc⟩, -, fails⟩ := Option.bind_eq_some_iff.mp stepped
    dsimp only at fails
    split at fails <;> cases fails <;> exact .idle (by simp)
  | crash i =>
    obtain ⟨⟨event, pc⟩, -, rfl⟩ := Option.map_eq_some_iff.mp stepped
    exact .idle (by simp)
  | changeEndpoints endpoints =>
    cases stepped
    exact .changes
  | deliver deliveryId status attempts =>
    cases stepped
    exact .delivers

omit [DecidableEq ι] in
theorem findDelivery_some {endpointId eventId : Uuid} {delivery : WebhookDelivery δ}
    (found : s.findDelivery endpointId eventId = some delivery) :
    delivery ∈ s.deliveries ∧ delivery.endpointId = endpointId ∧ delivery.eventId = eventId := by
  have there := List.find?_some found
  exact ⟨List.mem_of_find?_eq_some found, of_decide_eq_true there⟩

/-- Whatever happens, an endpoint does not get a second delivery of an event. -/
theorem OneDelivery.effect (one : s.OneDelivery) {action : Action δ ι}
    (effect : Effect s action s') : s'.OneDelivery := by
  cases effect with
  | inserts here absent =>
    -- the index accepts a row it has not found
    unfold OneDelivery
    rw [List.map_append, List.map_singleton]
    refine List.nodup_append.mpr ⟨one, List.nodup_singleton _, ?_⟩
    rintro key there _ new rfl
    obtain ⟨delivery, member, same⟩ := List.mem_map.mp there
    obtain rfl := List.mem_singleton.mp new
    obtain ⟨endpointId, eventId⟩ := Prod.ext_iff.mp same
    exact List.find?_eq_none.mp absent delivery member (decide_eq_true ⟨endpointId, eventId⟩)
  | delivers =>
    have keys : ∀ deliveries : List (WebhookDelivery δ), ∀ {deliveryId status attempts},
        (deliveries.map fun delivery => if delivery.id = deliveryId then
          { delivery with status, attempts } else delivery).map
            (fun delivery => (delivery.endpointId, delivery.eventId)) =
          deliveries.map fun delivery => (delivery.endpointId, delivery.eventId) := by
      intro deliveries deliveryId status attempts
      rw [List.map_map]
      refine List.map_congr_left fun delivery _ => ?_
      rw [Function.comp_apply]
      split_ifs <;> rfl
    unfold OneDelivery
    rw [keys]
    exact one
  | idle | selects | returns | finds | enqueues | loses | changes => exact one

/-- Whatever happens, deliveries and their jobs stay. -/
theorem Effect.grows {action : Action δ ι} (effect : Effect s action s') : s.Grows s' := by
  have stays : ∀ delivery ∈ s.deliveries, ∃ delivery' ∈ s.deliveries, delivery'.id = delivery.id ∧
      delivery'.endpointId = delivery.endpointId ∧ delivery'.eventId = delivery.eventId :=
    (Grows.refl s).deliveries
  cases effect with
  | inserts here absent =>
    exact ⟨fun delivery member => ⟨delivery, List.mem_append_left _ member, rfl, rfl, rfl⟩,
      fun _ member => member⟩
  | enqueues here => exact ⟨stays, fun _ member => List.mem_cons_of_mem _ member⟩
  | loses => exact ⟨stays, fun _ member => List.mem_cons_of_mem _ member⟩
  | delivers =>
    refine ⟨fun delivery member => ⟨_, List.mem_map_of_mem member, ?_⟩, fun _ member => member⟩
    split_ifs <;> exact ⟨rfl, rfl, rfl⟩
  | idle | selects | returns | finds | changes => exact ⟨stays, fun _ member => member⟩

/-! ## Runs in which deliveries are found with their jobs -/

/-- An insert that finds a delivery finds its job added. -/
def FindsEnqueued : Action δ ι → System δ ι → Prop
  | .insert i _, s => ∀ attempt ∈ s.attempts i, attempt.2.FindsEnqueued s attempt.1
  | _, _ => True

instance : ∀ (action : Action δ ι) (s : System δ ι), Decidable (FindsEnqueued action s)
  | .insert i _, s =>
    inferInstanceAs (Decidable (∀ attempt ∈ s.attempts i, attempt.2.FindsEnqueued s attempt.1))
  | .attempt _ _, _ | .advance _, _ | .enqueue _ _ _, _ | .databaseFails _, _ | .crash _, _
  | .changeEndpoints _, _ | .deliver _ _ _, _ => .isTrue trivial

/-- Every attempt holds what it has seen to. -/
def Inv (s : System δ ι) : Prop :=
  ∀ i event pc, s.attempts i = some (event, pc) → pc.Holds s event

theorem Inv.put (inv : s.Inv) (grows : s.Grows s')
    (attempts : s'.attempts = Function.update s.attempts i (some (event, pc)))
    (holds : pc.Holds s' event) : s'.Inv := by
  intro j event' pc' here
  rw [attempts] at here
  rcases eq_or_ne j i with rfl | other
  · obtain ⟨rfl, rfl⟩ : event = event' ∧ pc = pc' := by simpa using here
    exact holds
  · rw [Function.update_of_ne other] at here
    exact (inv j event' pc' here).grows grows

theorem Inv.step (inv : s.Inv) {action : Action δ ι} (admits : FindsEnqueued action s)
    (effect : Effect s action s') : s'.Inv := by
  have grows := effect.grows
  cases effect with
  | idle pc_idle =>
    apply inv.put grows rfl
    rcases pc_idle with rfl | rfl | rfl | rfl
    · trivial
    · trivial
    · trivial
    · exact fun endpoint member => by cases member
  | selects endpoints => exact inv.put grows rfl fun endpoint member => .inl member
  | returns here => exact inv.put grows rfl (Settled.grows (inv _ _ _ here) grows)
  | @finds i _ event endpoint selected remaining created delivery here found =>
    apply inv.put grows rfl
    intro other member
    obtain ⟨there, endpointId, eventId⟩ := findDelivery_some found
    have queued : delivery.id ∈ s.enqueued := admits _ here delivery found
    rcases inv _ _ _ here other member with remains | delivers
    · rcases List.mem_cons.mp remains with rfl | later
      · exact .inr ⟨delivery, there, endpointId, eventId, .inl queued⟩
      · exact .inl later
    · exact .inr (delivers.grows grows)
  | @inserts i id event endpoint selected remaining created here absent =>
    apply inv.put grows rfl
    intro other member
    rcases inv _ _ _ here other member with remains | delivers
    · rcases List.mem_cons.mp remains with rfl | later
      · exact .inr ⟨newDelivery id other event, List.mem_append_right _ (List.mem_singleton_self _),
          rfl, rfl, .inr rfl⟩
      · exact .inl later
    · obtain ⟨delivery, there, endpointId, eventId, queued⟩ := delivers.grows grows
      exact .inr ⟨delivery, there, endpointId, eventId, queued.imp_right fun none => by cases none⟩
  | @enqueues i event deliveryId selected remaining created added answered here =>
    apply inv.put grows rfl
    intro other member
    rcases inv _ _ _ here other member with remains | delivers
    · exact .inl remains
    · obtain ⟨delivery, there, endpointId, eventId, queued⟩ := delivers.grows grows
      refine .inr ⟨delivery, there, endpointId, eventId, .inl ?_⟩
      rcases queued with before | pending
      · exact before
      · obtain rfl := Option.some.inj pending
        exact List.mem_cons_self
  | loses => exact inv.put grows rfl trivial
  | changes => exact fun i event pc here => (inv i event pc here).grows grows
  | delivers => exact fun i event pc here => (inv i event pc here).grows grows

/-! ## Main results -/

/-- An attempt that has returned: each delivery of its event to an endpoint it selected has its
job. -/
def Queued (s : System δ ι) : Prop :=
  ∀ i event selected created, s.attempts i = some (event, .returned selected created) →
    ∀ delivery ∈ s.deliveries, delivery.eventId = event.eventId →
      (∃ endpoint ∈ selected, endpoint.id = delivery.endpointId) → delivery.id ∈ s.enqueued

omit [DecidableEq ι] in
theorem Inv.queued (inv : s.Inv) (one : s.OneDelivery) : s.Queued := by
  rintro i event selected created here delivery member eventId ⟨endpoint, chosen, endpointId⟩
  rcases inv i event _ here endpoint chosen with remains | ⟨own, there, own_endpoint, own_event, queued⟩
  · cases remains
  · -- the index leaves only this one
    have same : own = delivery := List.inj_on_of_nodup_map one there member
      (Prod.ext (own_endpoint.trans endpointId) (own_event.trans eventId.symm))
    rw [← same]
    exact queued.resolve_right fun none => by cases none

/-- Each endpoint has at most one delivery of an event, in every run. Where no attempt finds a
delivery whose job has not been added, every attempt that returns leaves a job for each delivery of
its event to an endpoint it selected. -/
theorem queued_of_findsEnqueued (endpoints : List WebhookEndpoint) :
    (∀ s : System δ ι, Reaches Schedule.Any (start endpoints) s → s.OneDelivery) ∧
      ∀ s : System δ ι, Reaches FindsEnqueued (start endpoints) s → s.Queued := by
  have one : ∀ {Admits : Action δ ι → System δ ι → Prop} (s : System δ ι),
      Reaches Admits (start endpoints) s → s.OneDelivery := by
    intro Admits s run
    exact run.invariant OneDelivery
      (fun _ _ _ one _ stepped => one.effect (effect_of_step stepped)) List.nodup_nil
  refine ⟨one, fun s run => Inv.queued ?_ (one s run)⟩
  exact run.invariant Inv
    (fun _ _ _ inv admits stepped => inv.step admits (effect_of_step stepped))
    fun i event pc here => by cases here

/-! ## A delivery without its job -/

def listening : WebhookEndpoint := ⟨1, 7, [ALL_EVENTS], true, none⟩

def paid : DomainEventMessage Unit := ⟨3, "payment.successful", "2026-01-01T00:00:00.000Z", some 7, ()⟩

/-- Where the worker dies after it has added the job, the next attempt has nothing to add. -/
theorem queued_after_retry : ∃ s : System Unit (Fin 2),
    Reaches FindsEnqueued (start [listening]) s ∧
      s.attempts 1 = some (paid, .returned [listening] 0) ∧ s.OneDelivery ∧ s.Queued := by
  have ran : (Schedule.run step FindsEnqueued [.attempt 0 paid, .advance 0, .insert 0 5,
      .enqueue 0 true true, .crash 0, .attempt 1 paid, .advance 1, .insert 1 6, .advance 1]
      (start [listening] : System Unit (Fin 2))).map
        (fun s => decide (s.attempts 1 = some (paid, .returned [listening] 0))) = some true := by
    decide +kernel
  obtain ⟨s, ran, returned⟩ := Option.map_eq_some_iff.mp ran
  have run := Schedule.reaches_of_run ran
  obtain ⟨one, queued⟩ := queued_of_findsEnqueued (δ := Unit) (ι := Fin 2) [listening]
  exact ⟨s, run, of_decide_eq_true returned, one s (run.mono fun _ _ _ => trivial), queued s run⟩

/-- An attempt inserts the delivery and its worker dies; the next attempt finds it and returns. -/
theorem not_queued_when_worker_dies :
    ∃ s : System Unit (Fin 2), Reaches Schedule.Any (start [listening]) s ∧ ¬ s.Queued := by
  have ran : (Schedule.run step Schedule.Any [.attempt 0 paid, .advance 0, .insert 0 5, .crash 0,
      .attempt 1 paid, .advance 1, .insert 1 6, .advance 1]
      (start [listening] : System Unit (Fin 2))).map
        (fun s => decide (s.attempts 1 = some (paid, .returned [listening] 0) ∧
          s.deliveries = [newDelivery 5 listening paid] ∧ s.enqueued = [])) = some true := by
    decide +kernel
  obtain ⟨s, ran, facts⟩ := Option.map_eq_some_iff.mp ran
  obtain ⟨returned, deliveries, enqueued⟩ := of_decide_eq_true facts
  refine ⟨s, Schedule.reaches_of_run ran, fun queued => ?_⟩
  have job := queued 1 paid [listening] 0 returned (newDelivery 5 listening paid)
    (by rw [deliveries]; exact List.mem_singleton_self _) rfl
    ⟨listening, List.mem_singleton_self _, rfl⟩
  rw [enqueued] at job
  cases job

end System

end Finstack.OutboundWebhooks
