import Finstack.Foundation.Schedule
import Finstack.Foundation.UniqueIndex
import Finstack.Model.Errors
import Finstack.Model.Outbox.Events
import Mathlib.Data.List.Sort

/-! # Provider webhooks and the relay

`WebhooksService.receive`, `process` and `replay`, the transactions of other services that record
events, `OutboxRelay.tick` and the cleanup, statement by statement, for any number of calls at once.
A relay publishes outside the database while its transaction holds the rows it has selected.
-/

namespace Finstack.Webhooks

open Foundation Outbox PaymentProviders

inductive WebhookEventStatus where
  | received
  | processed
  | failed
  | ignored
deriving DecidableEq, Repr

/-- A row of `webhook_events`, but for its id. -/
structure WebhookEvent where
  provider : String
  eventId : String
  type : String
  providerType : String
  providerReference : Option String
  payload : Json
  status : WebhookEventStatus
  outcome : Option String
  attempts : Nat
  lastError : Option String
  receivedAt : Nat
  processedAt : Option Nat

/-- The key of `uq_webhook_events_provider_event`. -/
def WebhookEvent.HasKey (provider eventId : String) (event : WebhookEvent) : Bool :=
  event.provider = provider ∧ event.eventId = eventId

/-! ## Errors -/

def unknownPaymentProviderException (name : String) : AppException :=
  ⟨"UNKNOWN_PAYMENT_PROVIDER", "Payment provider \"" ++ name ++ "\" is not enabled",
    HttpStatus.unprocessableEntity⟩

def invalidWebhookSignatureException : AppException :=
  ⟨"INVALID_WEBHOOK_SIGNATURE", "Webhook signature verification failed", HttpStatus.unauthorized⟩

def invalidWebhookPayloadException : AppException :=
  ⟨"INVALID_WEBHOOK_PAYLOAD", "Webhook body is not a valid event", HttpStatus.badRequest⟩

def webhookEventNotReplayableException : AppException :=
  ⟨"WEBHOOK_EVENT_NOT_REPLAYABLE", "Only failed or ignored webhook events can be replayed",
    HttpStatus.conflict⟩

def webhookEventNotFoundException : AppException :=
  ⟨"WEBHOOK_EVENT_NOT_FOUND", "Webhook event not found", HttpStatus.notFound⟩

/-! ## What is stored -/

structure ProviderWebhookEvent where
  eventId : String
  type : String
  providerType : String
  providerReference : Option String

/-- An adapter, as far as webhooks go, for bodies `β` and headers `η`. -/
structure WebhookProvider (β η : Type) where
  verifyWebhookSignature : β → η → Except Err Bool
  /-- None where it throws. -/
  parseWebhookEvent : β → Option ProviderWebhookEvent

/-- The enabled providers, and `JSON.parse`. -/
structure Gateway (β η : Type) where
  providers : String → Option (WebhookProvider β η)
  parseJson : β → Option Json

variable {β η : Type}

/-- What `receive` does before its transaction. -/
def Gateway.accept (gateway : Gateway β η) (providerName : String) (rawBody : Option β)
    (headers : η) (now : Nat) : Except Err WebhookEvent :=
  match gateway.providers providerName, rawBody with
  | none, _ => .error (.app (unknownPaymentProviderException providerName))
  | some _, none => .error (.app invalidWebhookSignatureException)
  | some provider, some body =>
    match provider.verifyWebhookSignature body headers with
    | .error error => .error error
    | .ok false => .error (.app invalidWebhookSignatureException)
    | .ok true =>
      match provider.parseWebhookEvent body, gateway.parseJson body with
      | some parsed, some payload =>
        if parsed.eventId = "" ∨ parsed.eventId = "undefined" then
          .error (.app invalidWebhookPayloadException)
        else
          .ok {
            provider := providerName
            eventId := parsed.eventId
            type := parsed.type
            providerType := String.ofList (slice 100 parsed.providerType.toList)
            providerReference := parsed.providerReference
            payload
            status := .received
            outcome := none
            attempts := 0
            lastError := none
            receivedAt := now
            processedAt := none }
      | _, _ => .error (.app invalidWebhookPayloadException)

/-- The command of `scheduleProcessing`. -/
def scheduleProcessing (webhookEventId : Uuid) : NewOutboxEvent where
  type := WEBHOOK_RECEIVED
  aggregateType := "webhook_event"
  aggregateId := webhookEventId
  payload := .object [("webhookEventId", .string (uuidText webhookEventId))]

/-- What the services that `process` calls make of an event. -/
inductive Handling where
  | finished (ignored : Bool) (outcome : String)
  | threw (message : String)
deriving DecidableEq, Repr

def Handling.status : Handling → WebhookEventStatus
  | .finished false _ => .processed
  | .finished true _ => .ignored
  | .threw _ => .failed

/-- The updates of `finish` and of the `catch` of `process`. -/
def Handling.update (handling : Handling) (attempts date : Nat) (event : WebhookEvent) :
    WebhookEvent :=
  match handling with
  | .finished _ outcome =>
    { event with
      status := handling.status
      attempts
      outcome := some outcome
      lastError := none
      processedAt := some date }
  | .threw message =>
    { event with
      status := handling.status
      attempts
      lastError := some (String.ofList (slice 1000 message.toList)) }

/-! ## Calls -/

inductive Request (β η : Type) where
  | receive (providerName : String) (rawBody : Option β) (headers : η)
  | replay (webhookEventId : Uuid)
  | process (webhookEventId : Uuid) (handling : Handling)
  /-- A transaction of another service. -/
  | record (events : List NewOutboxEvent)
  | tick
  | cleanup

inductive Result where
  | received (eventId : String) (duplicate : Bool)
  | replayed (event : WebhookEvent)
  | processed (status : WebhookEventStatus)
  | recorded
  | relayed (published : Nat)
  | deleted (affected : Nat)

/-- What a call does after its commit. -/
inductive After where
  | answer (result : Result)
  | reread (webhookEventId : Uuid)

/-- The events a relay has selected, as it read them. -/
abbrev Batch := List (Uuid × Outbox.OutboxEvent)

/-- The statement a call is at, with what it has read. -/
inductive Pc where
  | inserting (event : WebhookEvent) (now : Nat)
  | scheduling (webhookEventId : Uuid) (now : Nat) (after : After)
  | commit (after : After)
  /-- `FOR UPDATE` of `replay`. -/
  | locking (webhookEventId : Uuid) (now : Nat)
  | updating (webhookEventId : Uuid) (now : Nat)
  | rereading (webhookEventId : Uuid)
  | processing (webhookEventId : Uuid) (handling : Handling)
  | finishing (webhookEventId : Uuid) (attempts : Nat) (handling : Handling)
  | recording (events : List NewOutboxEvent) (now : Nat)
  /-- `FOR UPDATE SKIP LOCKED`: the rows still to be locked, and those that were read. -/
  | claiming (now : Nat) (candidates : List Uuid) (events : Batch)
  /-- The loop of `relayBatch`, with the events still to come. -/
  | publishing (events remaining : Batch) (published : Nat)
  | marking (events : Batch) (id : Uuid) (event : Outbox.OutboxEvent) (remaining : Batch) (published : Nat)
  | failing (events : Batch) (id : Uuid) (event : Outbox.OutboxEvent) (error : String) (remaining : Batch)
    (published : Nat)
  /-- `DELETE`: the rows still to be locked. -/
  | deleting (now : Nat) (candidates : List Uuid) (affected : Nat)
  | returned (result : Result)
  | threw (error : Err)
  | crashed

def After.next : After → Pc
  | .answer result => .returned result
  | .reread webhookEventId => .rereading webhookEventId

/-- The call is over. -/
def Pc.ended : Pc → Bool
  | .returned _ | .threw _ | .crashed => true
  | _ => false

/-- The events the call holds to relay them. -/
def Pc.batch : Pc → Batch
  | .claiming _ _ events => events
  | .publishing events _ _ => events
  | .marking events _ _ _ _ => events
  | .failing events _ _ _ _ _ => events
  | _ => []

/-- The call is a `tick`. -/
def Pc.relaying : Pc → Bool
  | .claiming _ _ _ | .publishing _ _ _ | .marking _ _ _ _ _ | .failing _ _ _ _ _ _
  | .commit (.answer (.relayed _)) => true
  | _ => false

/-- Both tables with the ids they ever had, the jobs ever added to the queues, and every call. -/
structure System (ι : Type) where
  events : RowStore Uuid WebhookEvent ι
  eventIds : List Uuid
  outbox : RowStore Uuid Outbox.OutboxEvent ι
  outboxIds : List Uuid
  jobs : List Job
  calls : ι → Option Pc

variable {ι : Type} [DecidableEq ι]

namespace System

def start : System ι := ⟨.start fun _ => none, [], .start fun _ => none, [], [], fun _ => none⟩

def goto (s : System ι) (i : ι) (pc : Pc) : System ι :=
  { s with calls := Function.update s.calls i (some pc) }

def commit (s : System ι) (i : ι) : System ι :=
  { s with events := s.events.commit i, outbox := s.outbox.commit i }

def rollback (s : System ι) (i : ι) : System ι :=
  { s with events := s.events.rollback i, outbox := s.outbox.rollback i }

/-- `OutboxService.add` -/
def add (s : System ι) (i : ι) (id : Uuid) (event : NewOutboxEvent) (now : Nat) (next : Pc) :
    Option (System ι) :=
  if id ∈ s.outboxIds then none
  else
    some { s.goto i next with
      outbox := s.outbox.write i id (some (event.add now))
      outboxIds := id :: s.outboxIds }

/-- An update of an outbox row by its id. -/
def update (s : System ι) (i : ι) (id : Uuid) (change : Outbox.OutboxEvent → Outbox.OutboxEvent) (next : Pc) :
    Option (System ι) :=
  if s.outbox.Free i id then
    match s.outbox.view i id with
    | none => some (s.goto i next)
    | some row => some { s.goto i next with outbox := s.outbox.write i id (some (change row)) }
  else
    none

/-- An insert, with the id that the database generates. -/
def insertNext (s : System ι) (i : ι) (id : Uuid) : Pc → Option (System ι)
  | .inserting event now =>
    if id ∈ s.eventIds then none
    -- `ON CONFLICT DO NOTHING`
    else if s.events.Taken (WebhookEvent.HasKey event.provider event.eventId) s.eventIds i id then
      some (s.goto i (.commit (.answer (.received event.eventId true))))
    else if s.events.Waits (WebhookEvent.HasKey event.provider event.eventId) s.eventIds i id then
      none
    else
      some { s.goto i (.scheduling id now (.answer (.received event.eventId false))) with
        events := s.events.write i id (some event)
        eventIds := id :: s.eventIds }
  | .scheduling webhookEventId now after =>
    s.add i id (scheduleProcessing webhookEventId) now (.commit after)
  | .recording (event :: events) now => s.add i id event now (.recording events now)
  | _ => none

/-- The next row of the relay's `SELECT`, unless it is locked. -/
def claim (s : System ι) (i : ι) (now : Nat) (id : Uuid) (candidates : List Uuid)
    (events : Batch) : System ι :=
  if s.outbox.Free i id then
    match s.outbox.view i id with
    | none => s.goto i (.claiming now candidates events)
    | some event =>
      { s.goto i (.claiming now candidates
          (if event.Due now then events ++ [(id, event)] else events)) with
        outbox := s.outbox.lock i id }
  else
    s.goto i (.claiming now candidates events)

/-- The next statement of the call `i`, unless it waits for a lock; `date` is the caller's clock. -/
def advance (s : System ι) (i : ι) (date : Nat) : Pc → Option (System ι)
  | .commit after => some ((s.commit i).goto i after.next)
  | .locking webhookEventId now =>
    if s.events.Free i webhookEventId then
      match s.events.view i webhookEventId with
      | none => some ((s.rollback i).goto i (.threw (.app webhookEventNotFoundException)))
      | some event =>
        if event.status = .failed ∨ event.status = .ignored then
          some { s.goto i (.updating webhookEventId now) with
            events := s.events.lock i webhookEventId }
        else
          some ((s.rollback i).goto i (.threw (.app webhookEventNotReplayableException)))
    else
      none
  | .updating webhookEventId now =>
    match s.events.view i webhookEventId with
    | none => some (s.goto i (.scheduling webhookEventId now (.reread webhookEventId)))
    | some event =>
      some { s.goto i (.scheduling webhookEventId now (.reread webhookEventId)) with
        events := s.events.write i webhookEventId (some { event with status := .received }) }
  | .rereading webhookEventId =>
    match s.events.rows webhookEventId with
    | none => some (s.goto i (.threw (.entityNotFound "WebhookEvent")))
    | some event => some (s.goto i (.returned (.replayed event)))
  | .processing webhookEventId handling =>
    match s.events.rows webhookEventId with
    | none => some (s.goto i (.threw (.entityNotFound "WebhookEvent")))
    | some event =>
      if event.status = .processed ∨ event.status = .ignored then
        some (s.goto i (.returned (.processed event.status)))
      else
        some (s.goto i (.finishing webhookEventId (event.attempts + 1) handling))
  -- a statement without a transaction commits by itself
  | .finishing webhookEventId attempts handling =>
    if s.events.Free i webhookEventId then
      match s.events.view i webhookEventId with
      | none => some (s.goto i (.returned (.processed handling.status)))
      | some event =>
        some (({ s with
          events := s.events.write i webhookEventId
            (some (handling.update attempts date event)) }.commit i).goto i
              (.returned (.processed handling.status)))
    else
      none
  | .recording [] _ => some (s.goto i (.commit (.answer .recorded)))
  | .claiming _ [] events => some (s.goto i (.publishing events events 0))
  | .claiming now (id :: candidates) events =>
    if events.length = BATCH_SIZE then some (s.goto i (.publishing events events 0))
    else some (s.claim i now id candidates events)
  | .publishing _ [] published => some (s.goto i (.commit (.answer (.relayed published))))
  | .marking events id event remaining published =>
    s.update i id (fun row => row.markPublished event date)
      (.publishing events remaining (published + 1))
  | .failing events id event error remaining published =>
    s.update i id (fun row => row.markFailed event error date) (.publishing events remaining published)
  | .deleting _ [] affected => some (s.goto i (.commit (.answer (.deleted affected))))
  | .inserting _ _ | .scheduling _ _ _ | .recording (_ :: _) _ | .publishing _ (_ :: _) _
  | .deleting _ (_ :: _) _ | .returned _ | .threw _ | .crashed => none

/-- `publish` of the next event of a batch. -/
def publish (s : System ι) (i : ι) (answer : PublishAnswer) : Pc → Option (System ι)
  | .publishing events ((id, event) :: remaining) published =>
    let s := if answer.added then { s with jobs := jobOf id event :: s.jobs } else s
    match answer with
    | .resolved => some (s.goto i (.marking events id event remaining published))
    | .rejected _ error => some (s.goto i (.failing events id event error remaining published))
  | _ => none

/-- The update in the `try` throws, and the `catch` follows: the row may have been updated. -/
def updateThrows (s : System ι) (i : ι) (date : Nat) (executed : Bool) (error : String) :
    Pc → Option (System ι)
  | .marking events id event remaining published =>
    let failing := Pc.failing events id event error remaining published
    if executed then s.update i id (fun row => row.markPublished event date) failing
    else some (s.goto i failing)
  | _ => none

/-- The next row of the cleanup's `DELETE`, in any order. -/
def delete (s : System ι) (i : ι) (id : Uuid) : Pc → Option (System ι)
  | .deleting now candidates affected =>
    if id ∈ candidates ∧ s.outbox.Free i id then
      match s.outbox.view i id with
      | none => some (s.goto i (.deleting now (candidates.erase id) affected))
      | some event =>
        if event.Finished now RETENTION_outboxEventsDays then
          some { s.goto i (.deleting now (candidates.erase id) (affected + 1)) with
            outbox := s.outbox.write i id none }
        else
          some (s.goto i (.deleting now (candidates.erase id) affected))
    else
      none
  | _ => none

/-- The committed rows that a statement starts from. -/
def select (s : System ι) (where_ : Outbox.OutboxEvent → Bool) : Batch :=
  s.outboxIds.filterMap fun id =>
    match s.outbox.rows id with
    | some event => if where_ event then some (id, event) else none
    | none => none

/-- What a tick looks at: the oldest first. -/
def due (s : System ι) (now : Nat) : List Uuid :=
  ((s.select fun event => event.Due now).insertionSort
    fun a b => a.2.createdAt ≤ b.2.createdAt).map Prod.fst

/-- The first statement of a call. -/
def begin (gateway : Gateway β η) (s : System ι) (i : ι) (now : Nat) : Request β η → System ι
  | .receive providerName rawBody headers =>
    match gateway.accept providerName rawBody headers now with
    | .error error => s.goto i (.threw error)
    | .ok event => s.goto i (.inserting event now)
  | .replay webhookEventId => s.goto i (.locking webhookEventId now)
  | .process webhookEventId handling => s.goto i (.processing webhookEventId handling)
  | .record events => s.goto i (.recording events now)
  | .tick => s.goto i (.claiming now (s.due now) [])
  | .cleanup =>
    let finished := s.select fun event => event.Finished now RETENTION_outboxEventsDays
    s.goto i (.deleting now (finished.map Prod.fst) 0)

/-- A caller makes one call at a time. A `tick` while another one of its relay runs is that one. -/
def call (gateway : Gateway β η) (s : System ι) (i : ι) (now : Nat) (request : Request β η) :
    Option (System ι) :=
  match s.calls i, request with
  | none, request => some (s.begin gateway i now request)
  | some pc, .tick =>
    if pc.ended then some (s.begin gateway i now .tick) else if pc.relaying then some s else none
  | some pc, request => if pc.ended then some (s.begin gateway i now request) else none

/-- The database does not execute the statement: the transaction is rolled back. -/
def fail (s : System ι) (i : ι) (message : String) (pc : Pc) : Option (System ι) :=
  match pc with
  | .returned _ | .threw _ | .crashed => none
  | .finishing webhookEventId attempts (.finished _ _) =>
    some (s.goto i (.finishing webhookEventId attempts (.threw message)))
  | pc =>
    if pc.relaying then some ((s.rollback i).goto i (.returned (.relayed 0)))
    else some ((s.rollback i).goto i (.threw (.internal "QueryFailedError" message)))

/-- What the environment decides. -/
inductive Action (β η ι : Type) where
  | call (i : ι) (now : Nat) (request : Request β η)
  | insert (i : ι) (id : Uuid)
  | advance (i : ι) (date : Nat)
  | publish (i : ι) (answer : PublishAnswer)
  | updateThrows (i : ι) (date : Nat) (executed : Bool) (error : String)
  | delete (i : ι) (id : Uuid)
  | fail (i : ι) (message : String)
  | crash (i : ι)

def step (gateway : Gateway β η) : Action β η ι → System ι → Option (System ι)
  | .call i now request, s => s.call gateway i now request
  | .insert i id, s => (s.calls i).bind (s.insertNext i id)
  | .advance i date, s => (s.calls i).bind (s.advance i date)
  | .publish i answer, s => (s.calls i).bind (s.publish i answer)
  | .updateThrows i date executed error, s => (s.calls i).bind (s.updateThrows i date executed error)
  | .delete i id, s => (s.calls i).bind (s.delete i id)
  | .fail i message, s => (s.calls i).bind (s.fail i message)
  | .crash i, s => (s.calls i).map fun _ => (s.rollback i).goto i .crashed

/-- Everything that can happen. -/
def Reaches (gateway : Gateway β η) : System ι → System ι → Prop :=
  Schedule.Reaches (step gateway) Schedule.Any

end System

end Finstack.Webhooks
