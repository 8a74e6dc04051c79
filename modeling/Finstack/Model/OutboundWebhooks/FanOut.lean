import Finstack.Foundation.Schedule
import Finstack.Model.Ledger.Types
import Mathlib.Logic.Function.Basic

/-! # Fan-out of domain events

`OutboundWebhooksService.fanOut`, statement by statement, for any number of attempts at once: the
job of a domain event is tried again whenever an attempt throws or its worker dies. A delivery is
inserted in a transaction of its own and its job is added to the queue afterwards.
-/

namespace Finstack.OutboundWebhooks

open Foundation

inductive WebhookDeliveryStatus where
  | pending
  | succeeded
  | failed
deriving DecidableEq, Repr

/-- Events an organization can subscribe to. -/
def WEBHOOK_EVENT_TYPES : List String :=
  ["payment.successful", "payment.failed", "payment.funds_available", "refund.successful",
    "refund.failed", "payout.successful", "payout.failed", "payout.reversed"]

/-- Subscribes to every event type. -/
def ALL_EVENTS : String := "*"

/-- The envelope delivered to queue consumers; `δ` is what else an event's `data` holds. -/
structure DomainEventMessage (δ : Type) where
  eventId : Uuid
  type : String
  occurredAt : String
  /-- `data.organizationId`, where it is a string. -/
  organizationId : Option Uuid
  data : δ
deriving DecidableEq, Repr

structure WebhookEndpoint where
  id : Uuid
  organizationId : Uuid
  eventTypes : List String
  enabled : Bool
  deletedAt : Option Nat
deriving DecidableEq, Repr

/-- Exactly what is sent. -/
structure Envelope (δ : Type) where
  id : Uuid
  type : String
  createdAt : String
  data : δ
deriving DecidableEq, Repr

/-- One event sent to one endpoint. -/
structure WebhookDelivery (δ : Type) where
  id : Uuid
  endpointId : Uuid
  eventId : Uuid
  eventType : String
  payload : Envelope δ
  status : WebhookDeliveryStatus
  attempts : Nat
deriving DecidableEq, Repr

variable {δ ι : Type} [DecidableEq ι]

def envelope (event : DomainEventMessage δ) : Envelope δ :=
  ⟨event.eventId, event.type, event.occurredAt, event.data⟩

/-- The endpoints `fanOut` selects. -/
def subscribed (endpoints : List WebhookEndpoint) (organizationId : Uuid) (type : String) :
    List WebhookEndpoint :=
  endpoints.filter fun endpoint => endpoint.organizationId = organizationId ∧
    (endpoint.enabled ∧ endpoint.deletedAt = none) ∧
      (type ∈ endpoint.eventTypes ∨ ALL_EVENTS ∈ endpoint.eventTypes)

/-- The row `fanOut` inserts. -/
def newDelivery (id : Uuid) (endpoint : WebhookEndpoint) (event : DomainEventMessage δ) :
    WebhookDelivery δ where
  id := id
  endpointId := endpoint.id
  eventId := event.eventId
  eventType := event.type
  payload := envelope event
  status := .pending
  attempts := 0

/-- Where an attempt is, with the endpoints it has selected. -/
inductive Pc where
  | selecting
  /-- The loop, with the endpoints still to come and the deliveries created. -/
  | fanningOut (selected remaining : List WebhookEndpoint) (created : Nat)
  | enqueueing (deliveryId : Uuid) (selected remaining : List WebhookEndpoint) (created : Nat)
  | returned (selected : List WebhookEndpoint) (created : Nat)
  | threw
  | crashed
deriving DecidableEq, Repr

/-- The tables, the deliveries whose job was ever added to the queue, and every attempt. -/
structure System (δ ι : Type) where
  endpoints : List WebhookEndpoint
  deliveries : List (WebhookDelivery δ)
  enqueued : List Uuid
  attempts : ι → Option (DomainEventMessage δ × Pc)

namespace System

/-- Endpoints and no deliveries. -/
def start (endpoints : List WebhookEndpoint) : System δ ι := ⟨endpoints, [], [], fun _ => none⟩

def goto (s : System δ ι) (i : ι) (event : DomainEventMessage δ) (pc : Pc) : System δ ι :=
  { s with attempts := Function.update s.attempts i (some (event, pc)) }

/-- The row of `uq_webhook_deliveries_endpoint_event`. -/
def findDelivery (s : System δ ι) (endpointId eventId : Uuid) : Option (WebhookDelivery δ) :=
  s.deliveries.find? fun delivery =>
    delivery.endpointId = endpointId ∧ delivery.eventId = eventId

/-- `INSERT ... ON CONFLICT DO NOTHING RETURNING id`: without a row, the loop goes on. -/
def insert (s : System δ ι) (i : ι) (id : Uuid) (event : DomainEventMessage δ) :
    Pc → Option (System δ ι)
  | .fanningOut selected (endpoint :: remaining) created =>
    if s.deliveries.any fun delivery => delivery.id = id then none
    else if (s.findDelivery endpoint.id event.eventId).isSome then
      some (s.goto i event (.fanningOut selected remaining created))
    else
      some { s.goto i event (.enqueueing id selected remaining created) with
        deliveries := s.deliveries ++ [newDelivery id endpoint event] }
  | _ => none

/-- `queue.add`: it succeeds, it fails, or its answer is lost. -/
def enqueue (s : System δ ι) (i : ι) (added answered : Bool) (event : DomainEventMessage δ) :
    Pc → Option (System δ ι)
  | .enqueueing deliveryId selected remaining created =>
    let s := if added then { s with enqueued := deliveryId :: s.enqueued } else s
    if added ∧ answered then some (s.goto i event (.fanningOut selected remaining (created + 1)))
    else some (s.goto i event .threw)
  | _ => none

/-- The statements that only read. -/
def advance (s : System δ ι) (i : ι) (event : DomainEventMessage δ) : Pc → Option (System δ ι)
  | .selecting =>
    match event.organizationId with
    | none => some (s.goto i event (.returned [] 0))
    | some organizationId =>
      if event.type ∈ WEBHOOK_EVENT_TYPES then
        let endpoints := subscribed s.endpoints organizationId event.type
        some (s.goto i event (.fanningOut endpoints endpoints 0))
      else some (s.goto i event (.returned [] 0))
  | .fanningOut selected [] created => some (s.goto i event (.returned selected created))
  | _ => none

/-- What the environment decides. -/
inductive Action (δ ι : Type) where
  /-- An attempt of an event's job. -/
  | attempt (i : ι) (event : DomainEventMessage δ)
  | advance (i : ι)
  | insert (i : ι) (id : Uuid)
  | enqueue (i : ι) (added answered : Bool)
  /-- A statement that the database does not execute. -/
  | databaseFails (i : ι)
  | crash (i : ι)
  | changeEndpoints (endpoints : List WebhookEndpoint)
  /-- An attempt of the delivery's worker is recorded. -/
  | deliver (deliveryId : Uuid) (status : WebhookDeliveryStatus) (attempts : Nat)
deriving DecidableEq, Repr

def step : Action δ ι → System δ ι → Option (System δ ι)
  | .attempt i event, s =>
    if s.attempts i = none then some (s.goto i event .selecting) else none
  | .advance i, s => (s.attempts i).bind fun (event, pc) => s.advance i event pc
  | .insert i id, s => (s.attempts i).bind fun (event, pc) => s.insert i id event pc
  | .enqueue i added answered, s =>
    (s.attempts i).bind fun (event, pc) => s.enqueue i added answered event pc
  | .databaseFails i, s =>
    (s.attempts i).bind fun (event, pc) =>
      match pc with
      | .selecting | .fanningOut _ (_ :: _) _ => some (s.goto i event .threw)
      | _ => none
  | .crash i, s => (s.attempts i).map fun (event, _) => s.goto i event .crashed
  | .changeEndpoints endpoints, s => some { s with endpoints := endpoints }
  | .deliver deliveryId status attempts, s =>
    some { s with
      deliveries := s.deliveries.map fun delivery =>
        if delivery.id = deliveryId then { delivery with status, attempts } else delivery }

/-- Everything that can happen in steps that `Admits` lets happen. -/
def Reaches (Admits : Action δ ι → System δ ι → Prop) : System δ ι → System δ ι → Prop :=
  Schedule.Reaches step Admits

end System

end Finstack.OutboundWebhooks
