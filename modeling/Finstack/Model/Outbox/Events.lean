import Finstack.Model.Ledger.Types
import Finstack.Model.PaymentProviders.Http

/-! # Outbox events

An event is recorded in the transaction of the change it describes. The relay publishes it to a
queue afterwards and marks it, and published events are deleted after some days.
-/

namespace Finstack.Outbox

open PaymentProviders

inductive OutboxEventStatus where
  | pending
  | published
deriving DecidableEq, Repr

/-- What a service records. -/
structure NewOutboxEvent where
  type : String
  aggregateType : String
  aggregateId : Uuid
  payload : Json

/-- A row of `outbox_events`, but for its id. -/
structure OutboxEvent extends NewOutboxEvent where
  status : OutboxEventStatus
  publishAttempts : Nat
  lastError : Option String
  availableAt : Nat
  createdAt : Nat
  publishedAt : Option Nat

def BATCH_SIZE : Nat := 100

/-- Commands for the webhooks worker rather than broadcasts. -/
def WEBHOOK_RECEIVED : String := "webhook.received"

def RETENTION_outboxEventsDays : Nat := 7

/-- The row `add` inserts; its times are the database's. -/
def NewOutboxEvent.add (event : NewOutboxEvent) (now : Nat) : OutboxEvent where
  toNewOutboxEvent := event
  status := .pending
  publishAttempts := 0
  lastError := none
  availableAt := now
  createdAt := now
  publishedAt := none

namespace OutboxEvent

/-- What a tick of the relay selects. -/
def Due (now : Nat) (event : OutboxEvent) : Prop :=
  event.status = .pending ∧ event.availableAt ≤ now

instance (now : Nat) (event : OutboxEvent) : Decidable (event.Due now) :=
  inferInstanceAs (Decidable (_ ∧ _))

/-- What `deletePublishedWithin` deletes. -/
def Finished (now days : Nat) (event : OutboxEvent) : Prop :=
  event.status = .published ∧ ∃ publishedAt ∈ event.publishedAt, publishedAt + days * 86400000 < now

instance (now days : Nat) (event : OutboxEvent) : Decidable (event.Finished now days) :=
  inferInstanceAs (Decidable (_ ∧ _))

/-- The row after `publish` has returned, by the event as it was selected. -/
def markPublished (row event : OutboxEvent) (date : Nat) : OutboxEvent :=
  { row with
    status := .published
    publishedAt := some date
    publishAttempts := event.publishAttempts + 1
    lastError := none }

def delayMs (attempts : Nat) : Nat := min 60000 (500 * 2 ^ attempts)

/-- The row after an error. -/
def markFailed (row event : OutboxEvent) (error : String) (date : Nat) : OutboxEvent :=
  let attempts := event.publishAttempts + 1
  { row with
    publishAttempts := attempts
    lastError := some (String.ofList (slice 1000 error.toList))
    availableAt := date + delayMs attempts }

end OutboxEvent

/-! ## Queues -/

inductive QueueName where
  | webhooks
  | domainEvents
deriving DecidableEq, Repr

/-- The envelope delivered to queue consumers. -/
structure DomainEventMessage where
  eventId : Uuid
  type : String
  aggregateType : String
  aggregateId : Uuid
  occurredAt : Nat
  data : Json

inductive JobData where
  | command (payload : Json)
  | message (event : DomainEventMessage)

structure Job where
  queue : QueueName
  name : String
  data : JobData
  jobId : Uuid

def toMessage (id : Uuid) (event : OutboxEvent) : DomainEventMessage :=
  ⟨id, event.type, event.aggregateType, event.aggregateId, event.createdAt, event.payload⟩

/-- What `publish` adds, and to which queue. -/
def jobOf (id : Uuid) (event : OutboxEvent) : Job :=
  if event.type = WEBHOOK_RECEIVED then ⟨.webhooks, "process", .command event.payload, id⟩
  else ⟨.domainEvents, event.type, .message (toMessage id event), id⟩

@[simp] theorem jobOf_markPublished (id : Uuid) (row event : OutboxEvent) (date : Nat) :
    jobOf id (row.markPublished event date) = jobOf id row := rfl

@[simp] theorem jobOf_markFailed (id : Uuid) (row event : OutboxEvent) (error : String)
    (date : Nat) : jobOf id (row.markFailed event error date) = jobOf id row := rfl

/-- How `publish` ends. The queue may have the job although its answer is an error. -/
inductive PublishAnswer where
  | resolved
  | rejected (added : Bool) (error : String)
deriving DecidableEq, Repr

def PublishAnswer.added : PublishAnswer → Bool
  | .resolved => true
  | .rejected added _ => added

end Finstack.Outbox
