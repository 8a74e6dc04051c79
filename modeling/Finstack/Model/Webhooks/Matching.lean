import Finstack.Model.Services.Checkout
import Finstack.Model.Webhooks.Events

/-! # Payments and the webhooks about them

`PaymentsService.ensureInitialized` and `WebhooksService.process`, statement by statement, for any
number of calls at once, with the providers between them: a provider may accept what it was sent at
any moment, answer then, later or not at all, and notify of what it has accepted. Whatever dies on
its way is never advanced again. What a settlement, a refund or a payout makes of an event is up to
the environment.
-/

namespace Finstack.Webhooks.Matching

open Foundation Services PaymentProviders

inductive ProviderEventType where
  | paymentApproved
  | paymentSucceeded
  | paymentFailed
  | refundSucceeded
  | refundFailed
  | payoutSucceeded
  | payoutFailed
  | payoutReversed
  | unknown
deriving DecidableEq, Repr

namespace ProviderEventType

/-- `type.startsWith('payment.')` -/
def isPayment : ProviderEventType → Bool
  | .paymentApproved | .paymentSucceeded | .paymentFailed => true
  | _ => false

/-- `type.startsWith('payout.')` -/
def isPayout : ProviderEventType → Bool
  | .payoutSucceeded | .payoutFailed | .payoutReversed => true
  | _ => false

def isRefund : ProviderEventType → Bool
  | .refundSucceeded | .refundFailed => true
  | _ => false

end ProviderEventType

/-- A row of `payments`, with the reference and the status of its transaction. -/
structure Payment where
  id : Uuid
  provider : String
  reference : String
  status : TransactionStatus := .pending
  providerReference : Option String := none
  authorizationUrl : Option String := none
deriving DecidableEq, Repr

instance : Keyed Payment Uuid := ⟨Payment.id⟩

/-- A webhook that has been verified and parsed. -/
structure Notification where
  provider : String
  eventId : String
  type : ProviderEventType
  providerReference : Option String
  /-- The transaction reference that it gives back, when it is about a payment that was asked for. -/
  reference : Option String
deriving DecidableEq, Repr

/-- A row of `webhook_events`; the reference is not stored, and stands here to say what the event is
about. -/
structure Event extends Notification where
  id : Uuid
  status : WebhookEventStatus := .received
  outcome : Option String := none
  attempts : Nat := 0
  lastError : Option String := none
deriving DecidableEq, Repr

instance : Keyed Event Uuid := ⟨Event.id⟩

/-- How providers name the checkout of a reference: always the same, and each reference its own. -/
structure Naming where
  providerReference (provider reference : String) : String
  injective : ∀ provider reference reference',
    providerReference provider reference = providerReference provider reference' →
      reference = reference'
  nonempty : ∀ provider reference, providerReference provider reference ≠ ""

def settlementOutcomeText : PaymentSettlementService.SettlementOutcome → String
  | .credited => "credited"
  | .alreadySettled => "already_settled"
  | .stillPending => "still_pending"
  | .failed => "failed"
  | .amountMismatch => "amount_mismatch"
  | .ignored => "ignored"

inductive RefundSync where
  | synced
  | alreadyFinal
  | notFound
deriving DecidableEq, Repr

/-- What the services that `process` calls return. -/
inductive Answer where
  | refunds (result : RefundSync)
  | payouts (found : Bool)
  | settled (outcome : PaymentSettlementService.SettlementOutcome)
deriving DecidableEq, Repr

def Answer.handling : Answer → Handling
  | .refunds .synced => .finished false "refunds_synced"
  | .refunds .alreadyFinal => .finished true "refund_already_final"
  | .refunds .notFound => .finished true "no_matching_refund"
  | .payouts true => .finished false "payout_synced"
  | .payouts false => .finished true "no_matching_payout"
  | .settled outcome => .finished false (settlementOutcomeText outcome)

/-- The updates of `finish` and of the `catch`. -/
def Event.handled (attempts : Nat) (handling : Handling) (event : Event) : Event :=
  match handling with
  | .finished _ outcome =>
    { event with status := handling.status, attempts, outcome := some outcome, lastError := none }
  | .threw message =>
    { event with
      status := handling.status
      attempts
      lastError := some (String.ofList (slice 1000 message.toList)) }

/-- A text that is there and not empty. -/
def truthy (text : Option String) : Bool := text.any (· ≠ "")

/-- The statement a call is at, with what it has read. -/
inductive Pc where
  /-- `ensureInitialized`, with the payment as its caller read it. -/
  | view (payment : Payment)
  /-- The provider has been sent the reference. -/
  | requested (payment : Payment) (reference : String)
  | store (payment : Payment) (providerReference authorizationUrl : String)
  | reject (payment : Payment)
  | viewAgain (id : Uuid)
  | answered (payment : Payment)
  | findEvent (id : Uuid)
  | dispatch (event : Event)
  | syncRefunds (event : Event)
  | syncPayout (event : Event)
  | settle (event : Event) (payment : Payment)
  | finish (event : Event) (handling : Handling)
  | processed (status : WebhookEventStatus)
  | threw (error : Err)

structure System (ι : Type) where
  payments : Table Payment
  /-- The provider and the reference of every request that was sent. -/
  requests : List (String × String)
  /-- Those that the provider has accepted. -/
  checkouts : List (String × String)
  events : Table Event
  calls : ι → Option Pc

variable {ι : Type} [DecidableEq ι]

namespace System

def start : System ι := ⟨.empty, [], [], .empty, fun _ => none⟩

def goto (s : System ι) (i : ι) (pc : Pc) : System ι :=
  { s with calls := Function.update s.calls i (some pc) }

/-- An UPDATE of a payment by its id. -/
def updatePayment (s : System ι) (id : Uuid) (change : Payment → Payment) : System ι :=
  { s with payments := s.payments.modify id change }

def updateEvent (s : System ι) (id : Uuid) (change : Event → Event) : System ι :=
  { s with events := s.events.modify id change }

def findByProviderReference (s : System ι) (provider : String) (providerReference : Option String) :
    Option Payment :=
  s.payments.rows.find? fun payment =>
    payment.provider = provider ∧ payment.providerReference = providerReference

/-- What an event is handed to. -/
def dispatch (s : System ι) (i : ι) (event : Event) : System ι :=
  if event.type.isRefund ∧ truthy event.providerReference then s.goto i (.syncRefunds event)
  else if event.type.isPayout ∧ truthy event.providerReference then s.goto i (.syncPayout event)
  else if event.type = .unknown then
    s.goto i (.finish event (.finished true "unhandled_event_type"))
  else
    let payment := if event.type.isPayment ∧ truthy event.providerReference then
      s.findByProviderReference event.provider event.providerReference else none
    match payment with
    | none => s.goto i (.finish event (.finished true "no_matching_payment"))
    | some payment => s.goto i (.settle event payment)

/-- The next statement of the call `i`. -/
def advance (s : System ι) (i : ι) : Pc → Option (System ι)
  | .view payment =>
    match s.payments.find? payment.id with
    | none => some (s.goto i (.threw PaymentsService.paymentNotFoundException))
    | some current =>
      if truthy payment.providerReference ∨ current.status ≠ .pending then
        some (s.goto i (.answered current))
      else
        some ({ s with requests := (payment.provider, current.reference) :: s.requests }.goto i
          (.requested payment current.reference))
  | .store payment providerReference authorizationUrl =>
    -- `uq_payments_provider_reference`
    if s.payments.rows.any fun other => other.id ≠ payment.id ∧ other.provider = payment.provider ∧
        other.providerReference = some providerReference then
      some (s.goto i (.threw PaymentsService.paymentProviderUnavailableException))
    else
      some ((s.updatePayment payment.id fun row => { row with
        providerReference := some providerReference
        authorizationUrl := some authorizationUrl }).goto i (.viewAgain payment.id))
  | .reject payment =>
    match s.payments.find? payment.id with
    | none => some (s.goto i (.threw PaymentsService.paymentNotFoundException))
    | some current =>
      match TransactionsService.assertTransition current.status .failed with
      | .error error => some (s.goto i (.threw error))
      | .ok () =>
        some ((s.updatePayment payment.id fun row => { row with status := .failed }).goto i
          (.viewAgain payment.id))
  | .viewAgain id =>
    match s.payments.find? id with
    | none => some (s.goto i (.threw (.entityNotFound "Payment")))
    | some current => some (s.goto i (.answered current))
  | .findEvent id =>
    match s.events.find? id with
    | none => some (s.goto i (.threw (.entityNotFound "WebhookEvent")))
    | some event =>
      if event.status = .processed ∨ event.status = .ignored then
        some (s.goto i (.processed event.status))
      else some (s.goto i (.dispatch event))
  | .dispatch event => some (s.dispatch i event)
  | .finish event handling =>
    some ((s.updateEvent event.id (Event.handled (event.attempts + 1) handling)).goto i
      (.processed handling.status))
  | .requested .. | .answered _ | .syncRefunds _ | .syncPayout _ | .settle .. | .processed _
  | .threw _ => none

/-- The provider answers a request, or the client gives up waiting. -/
def respond (naming : Naming) (s : System ι) (i : ι) (result : Except Thrown String) :
    Pc → Option (System ι)
  | .requested payment reference =>
    match result with
    | .ok authorizationUrl =>
      if (payment.provider, reference) ∈ s.checkouts then
        some (s.goto i (.store payment (naming.providerReference payment.provider reference)
          authorizationUrl))
      else none
    | .error thrown =>
      if isRejection thrown then some (s.goto i (.reject payment))
      else some (s.goto i (.threw PaymentsService.paymentProviderUnavailableException))
  | _ => none

/-- A service that `process` has called returns. -/
def answer (s : System ι) (i : ι) (answer : Answer) : Pc → Option (System ι)
  | .syncRefunds event =>
    match answer with
    | .refunds _ => some (s.goto i (.finish event answer.handling))
    | _ => none
  | .syncPayout event =>
    match answer with
    | .payouts _ => some (s.goto i (.finish event answer.handling))
    | _ => none
  | .settle event _ =>
    match answer with
    | .settled _ => some (s.goto i (.finish event answer.handling))
    | _ => none
  | _ => none

/-- A statement or a service throws: in the `try` of `process` this is recorded on the event. -/
def fail (s : System ι) (i : ι) (message : String) : Pc → Option (System ι)
  | .dispatch event | .syncRefunds event | .syncPayout event | .settle event _
  | .finish event (.finished _ _) => some (s.goto i (.finish event (.threw message)))
  | .store .. => some (s.goto i (.threw PaymentsService.paymentProviderUnavailableException))
  | .view _ | .reject _ | .viewAgain _ | .findEvent _ | .finish _ (.threw _) =>
    some (s.goto i (.threw (.internal "Error" message)))
  | .requested .. | .answered _ | .processed _ | .threw _ => none

/-- A provider gives back a reference only with a checkout it has accepted. -/
def Genuine (naming : Naming) (s : System ι) (notification : Notification) : Prop :=
  ∀ reference ∈ notification.reference, (notification.provider, reference) ∈ s.checkouts ∧
    notification.providerReference =
      some (naming.providerReference notification.provider reference)

instance (naming : Naming) (s : System ι) (notification : Notification) :
    Decidable (s.Genuine naming notification) :=
  inferInstanceAs (Decidable (∀ reference ∈ notification.reference, _ ∧ _))

/-- The insert of `receive`: a duplicate is acknowledged. -/
def receive (s : System ι) (id : Uuid) (notification : Notification) : System ι :=
  if s.events.rows.any fun event =>
      event.provider = notification.provider ∧ event.eventId = notification.eventId then s
  else { s with events := s.events.insert { notification with id } }

/-- What the environment decides. -/
inductive Action (ι : Type) where
  /-- `initialize` commits a new payment. -/
  | initializePayment (i : ι) (id : Uuid) (provider reference : String)
  /-- `initialize` finds the payment by its key. -/
  | retry (i : ι) (id : Uuid)
  | advance (i : ι)
  | accept (provider reference : String)
  | respond (i : ι) (result : Except Thrown String)
  /-- A settlement moves the transaction. -/
  | transition (id : Uuid) (status : TransactionStatus)
  | receive (id : Uuid) (notification : Notification)
  | process (i : ι) (id : Uuid)
  | answer (i : ι) (answer : Answer)
  | replay (id : Uuid)
  | fail (i : ι) (message : String)

def step (naming : Naming) : Action ι → System ι → Option (System ι)
  | .initializePayment i id provider reference, s =>
    if s.calls i = none ∧ s.payments.find? id = none ∧
        s.payments.rows.all fun other => other.reference ≠ reference then
      let payment : Payment := { id, provider, reference }
      some ({ s with payments := s.payments.insert payment }.goto i (.view payment))
    else none
  | .retry i id, s =>
    if s.calls i = none then (s.payments.find? id).map fun payment => s.goto i (.view payment)
    else none
  | .advance i, s => (s.calls i).bind (s.advance i)
  | .accept provider reference, s =>
    if (provider, reference) ∈ s.requests then
      some { s with checkouts := (provider, reference) :: s.checkouts }
    else none
  | .respond i result, s => (s.calls i).bind (s.respond naming i result)
  | .transition id status, s => some (s.updatePayment id fun row => { row with status })
  | .receive id notification, s =>
    if s.Genuine naming notification ∧ s.events.find? id = none then some (s.receive id notification)
    else none
  | .process i id, s => if s.calls i = none then some (s.goto i (.findEvent id)) else none
  | .answer i answer, s => (s.calls i).bind (s.answer i answer)
  | .replay id, s =>
    match s.events.find? id with
    | none => none
    | some event =>
      if event.status = .failed ∨ event.status = .ignored then
        some (s.updateEvent id fun row => { row with status := .received })
      else none
  | .fail i message, s => (s.calls i).bind (s.fail i message)

/-- Everything that can happen in steps that `Admits` lets happen. -/
def Reaches (naming : Naming) (Admits : Action ι → System ι → Prop) : System ι → System ι → Prop :=
  Schedule.Reaches (step naming) Admits

end System

end Finstack.Webhooks.Matching
