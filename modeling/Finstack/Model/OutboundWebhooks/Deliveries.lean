import Finstack.Model.OutboundWebhooks.FanOut
import Finstack.Model.PaymentProviders.Http

/-! # Sending deliveries

`OutboundWebhooksService.deliver` for one endpoint and its deliveries, statement by statement, for
any number of attempts at once: the queue hands a job out at least once, to any worker. What the
receiver answers is up to the environment. Everything that is recorded is kept in a trail, newest
first, next to the rows.
-/

namespace Finstack.OutboundWebhooks.Deliveries

open Foundation

/-- How an attempt of a delivery is recorded. -/
structure Delivery where
  id : Uuid
  status : WebhookDeliveryStatus := .pending
  attempts : Nat := 0
  lastResponseStatus : Option Nat := none
  lastError : Option String := none
  lastAttemptAt : Option Nat := none
  deliveredAt : Option Nat := none
deriving DecidableEq, Repr

structure Endpoint where
  enabled : Bool := true
  /-- Why the system disabled it; none when a person enabled it. -/
  disabledReason : Option String := none
  /-- Deliveries that ran out of attempts in a row. -/
  consecutiveFailures : Nat := 0
  deletedAt : Option Nat := none
deriving DecidableEq, Repr

inductive SendResult where
  | ok (status : Nat)
  | failed (status : Option Nat) (error : String)
deriving DecidableEq, Repr

inductive DeliveryOutcome where
  | succeeded
  | retry
  | failed
  | skipped
deriving DecidableEq, Repr

/-- Where an attempt is, with what it has read. -/
inductive Pc where
  | findDelivery
  | findEndpoint (delivery : Delivery)
  | refuse (delivery : Delivery)
  | send (delivery : Delivery) (endpoint : Endpoint)
  | succeed (delivery : Delivery) (endpoint : Endpoint) (status : Nat)
  | reset
  | fail (delivery : Delivery) (status : Option Nat) (error : String)
  | recordFinalFailure
  | disable (failures : Nat)
  | returned (outcome : DeliveryOutcome)
  | crashed
deriving DecidableEq, Repr

structure Attempt where
  deliveryId : Uuid
  lastAttempt : Bool
  pc : Pc
deriving DecidableEq, Repr

/-- What is recorded of the deliveries and of the endpoint. -/
inductive Record (ι : Type) where
  | succeeded (deliveryId : Uuid)
  /-- A delivery is written `pending` or `failed`. -/
  | unsuccessful (deliveryId : Uuid)
  | redelivered (deliveryId : Uuid)
  /-- A final failure is counted. -/
  | finalFailure (i : ι)
  /-- A person enables the endpoint. -/
  | enabled
  /-- The system disables the endpoint. -/
  | disabled (i : ι)
deriving DecidableEq, Repr

variable {ι : Type} [DecidableEq ι]

/-- The final failures since the last success or since the endpoint was enabled. -/
def failuresSince : List (Record ι) → Nat
  | [] => 0
  | .finalFailure _ :: earlier => failuresSince earlier + 1
  | .succeeded _ :: _ | .enabled :: _ => 0
  | .unsuccessful _ :: earlier | .redelivered _ :: earlier | .disabled _ :: earlier =>
    failuresSince earlier

/-- A success of this delivery is on record, and no redelivery after it. -/
def succeededOn (deliveryId : Uuid) : List (Record ι) → Bool
  | [] => false
  | .succeeded id :: earlier => id = deliveryId || succeededOn deliveryId earlier
  | .redelivered id :: earlier => id ≠ deliveryId && succeededOn deliveryId earlier
  | .unsuccessful _ :: earlier | .finalFailure _ :: earlier | .enabled :: earlier
  | .disabled _ :: earlier => succeededOn deliveryId earlier

structure System (ι : Type) where
  endpoint : Endpoint
  deliveries : Uuid → Option Delivery
  attempts : ι → Option Attempt
  trail : List (Record ι)

namespace System

/-- An endpoint as it is created. -/
def start : System ι := ⟨{}, fun _ => none, fun _ => none, []⟩

def goto (s : System ι) (i : ι) (attempt : Attempt) (pc : Pc) : System ι :=
  { s with attempts := Function.update s.attempts i (some { attempt with pc }) }

def record (s : System ι) (record : Record ι) : System ι := { s with trail := record :: s.trail }

/-- An UPDATE by id. -/
def update (s : System ι) (id : Uuid) (change : Delivery → Delivery) : System ι :=
  { s with deliveries := Function.update s.deliveries id ((s.deliveries id).map change) }

def updateEndpoint (s : System ι) (change : Endpoint → Endpoint) : System ι :=
  { s with endpoint := change s.endpoint }

/-- The next statement of the attempt `i`. -/
def advance (disableAfterFailures : Nat) (s : System ι) (i : ι) (now : Nat) (attempt : Attempt) :
    Option (System ι) :=
  match attempt.pc with
  | .findDelivery =>
    match s.deliveries attempt.deliveryId with
    | none => some (s.goto i attempt (.returned .skipped))
    | some delivery =>
      if delivery.status = .succeeded then some (s.goto i attempt (.returned .skipped))
      else some (s.goto i attempt (.findEndpoint delivery))
  | .findEndpoint delivery =>
    if s.endpoint.enabled = false ∨ s.endpoint.deletedAt.isSome then
      some (s.goto i attempt (.refuse delivery))
    else some (s.goto i attempt (.send delivery s.endpoint))
  | .refuse delivery =>
    some (((s.update delivery.id fun row => { row with
      status := .failed
      lastError := some "The endpoint is disabled" }).record (.unsuccessful delivery.id)).goto i
        attempt (.returned .failed))
  | .succeed delivery endpoint status =>
    some (((s.update delivery.id fun row => { row with
      status := .succeeded
      attempts := delivery.attempts + 1
      lastResponseStatus := some status
      lastError := none
      lastAttemptAt := some now
      deliveredAt := some now }).record (.succeeded delivery.id)).goto i attempt
        (if endpoint.consecutiveFailures > 0 then .reset else .returned .succeeded))
  | .reset =>
    some ((s.updateEndpoint fun row => { row with consecutiveFailures := 0 }).goto i attempt
      (.returned .succeeded))
  | .fail delivery status error =>
    some (((s.update delivery.id fun row => { row with
      status := if attempt.lastAttempt then .failed else .pending
      attempts := delivery.attempts + 1
      lastResponseStatus := status
      lastError := some (String.ofList (PaymentProviders.slice 1000 error.toList))
      lastAttemptAt := some now }).record (.unsuccessful delivery.id)).goto i attempt
        (if attempt.lastAttempt then .recordFinalFailure else .returned .retry))
  | .recordFinalFailure =>
    let failures := s.endpoint.consecutiveFailures + 1
    some (((s.updateEndpoint fun row => { row with consecutiveFailures := failures }).record
      (.finalFailure i)).goto i attempt
        (if failures ≥ disableAfterFailures then .disable failures else .returned .failed))
  | .disable failures =>
    some (((s.updateEndpoint fun row => { row with
      enabled := false
      disabledReason := some s!"Disabled after {failures} failed deliveries in a row" }).record
        (.disabled i)).goto i attempt (.returned .failed))
  | .send .. | .returned _ | .crashed => none

/-- The receiver answers, or cannot be reached. -/
def respond (s : System ι) (i : ι) (result : SendResult) (attempt : Attempt) : Option (System ι) :=
  match attempt.pc with
  | .send delivery endpoint =>
    match result with
    | .ok status => some (s.goto i attempt (.succeed delivery endpoint status))
    | .failed status error => some (s.goto i attempt (.fail delivery status error))
  | _ => none

/-- What the environment decides. The lookups of `redeliver`, `update` and `remove` can only refuse
them, and are left out. -/
inductive Action (ι : Type) where
  /-- `fanOut` or `sendTest` inserts a delivery. -/
  | create (deliveryId : Uuid)
  /-- The queue hands out a job of the delivery. -/
  | attempt (i : ι) (deliveryId : Uuid) (lastAttempt : Bool)
  | advance (i : ι) (now : Nat)
  | respond (i : ι) (result : SendResult)
  | redeliver (deliveryId : Uuid)
  | update (enabled : Bool)
  | remove (now : Nat)
  /-- The worker dies, or a statement fails. -/
  | crash (i : ι)
deriving DecidableEq, Repr

def step (disableAfterFailures : Nat) : Action ι → System ι → Option (System ι)
  | .create deliveryId, s =>
    if s.deliveries deliveryId = none then
      some { s with deliveries := Function.update s.deliveries deliveryId (some { id := deliveryId }) }
    else none
  | .attempt i deliveryId lastAttempt, s =>
    if s.attempts i = none then
      some (s.goto i ⟨deliveryId, lastAttempt, .findDelivery⟩ .findDelivery)
    else none
  | .advance i now, s => (s.attempts i).bind (s.advance disableAfterFailures i now)
  | .respond i result, s => (s.attempts i).bind (s.respond i result)
  | .redeliver deliveryId, s =>
    if (s.deliveries deliveryId).isSome then
      some ((s.update deliveryId fun row => { row with status := .pending }).record
        (.redelivered deliveryId))
    else none
  | .update true, s =>
    some ((s.updateEndpoint fun row => { row with
      enabled := true
      disabledReason := none
      consecutiveFailures := 0 }).record .enabled)
  | .update false, s =>
    some (s.updateEndpoint fun row => { row with enabled := false, disabledReason := none })
  | .remove now, s =>
    some (s.updateEndpoint fun row => { row with enabled := false, deletedAt := some now })
  | .crash i, s => (s.attempts i).map fun attempt => s.goto i attempt .crashed

/-- Everything that can happen in steps that `Admits` lets happen. -/
def Reaches (disableAfterFailures : Nat) (Admits : Action ι → System ι → Prop) :
    System ι → System ι → Prop :=
  Schedule.Reaches (step disableAfterFailures) Admits

end System

end Finstack.OutboundWebhooks.Deliveries
