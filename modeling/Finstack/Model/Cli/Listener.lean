import Finstack.Foundation.Schedule
import Finstack.Model.PaymentProviders.Http
import Mathlib.Logic.Function.Basic

/-! # `finstack listen`

`Listener.tick` and `Listener.deliver`, statement by statement, with any sources and any answers of
FinStack. Sources list every event they have; events may happen at any time. What was posted is kept
beside the listener, with what came of it.
-/

namespace Finstack.Cli

open Foundation PaymentProviders

/-- A delivery FinStack keeps refusing is dropped after this many tries. -/
def MAX_DELIVERY_ATTEMPTS : Nat := 5

/-- One event, ready to be posted. -/
structure Delivery where
  /-- Unique per record and state. -/
  key : String
  provider : String
  type : String
  reference : String
  body : String
  headers : List (String × String)
deriving DecidableEq, Repr

/-- What is sent to FinStack. -/
structure Request where
  url : String
  headers : List (String × String)
  body : String
deriving DecidableEq, Repr

/-- What comes of a request. -/
inductive Answer where
  /-- The status, and the body or why it cannot be read. -/
  | response (status : Nat) (text : String ⊕ String)
  /-- A timeout or a broken connection, and whether FinStack has accepted the event all the same. -/
  | lost (message : String) (accepted : Bool)
deriving DecidableEq, Repr

namespace Answer

def ok : Answer → Bool
  | .response status _ => 200 ≤ status && status ≤ 299
  | .lost _ _ => false

/-- What FinStack made of the event. -/
def accepted : Answer → Bool
  | .lost _ accepted => accepted
  | answer => answer.ok

def outcome : Answer → String
  | .response status text =>
    if 200 ≤ status && status ≤ 299 then toString status
    else
      match text with
      | .inl text => s!"{status} {String.ofList (slice 200 text.toList)}"
      | .inr message => s!"not delivered: {message}"
  | .lost message _ => s!"not delivered: {message}"

end Answer

/-- `ι` names the sources. -/
structure ListenerOptions (ι : Type) where
  sources : List ι
  provider : ι → String
  /-- FinStack's base URL. -/
  forwardTo : String
  /-- Also deliver events that already existed. -/
  replay : Bool

structure Listener where
  delivered : List String
  attempts : String → Option Nat
  lastError : String → Option String
  started : Bool
  log : List String

namespace Listener

def start : Listener := ⟨[], fun _ => none, fun _ => none, false, []⟩

def say (line : String) (listener : Listener) : Listener :=
  { listener with log := listener.log ++ [line] }

/-- Said once, not on every poll. -/
def pollFailed (provider message : String) (listener : Listener) : Listener :=
  if listener.lastError provider = some message then listener
  else
    { listener.say s!"! {provider}: {message}" with
      lastError := Function.update listener.lastError provider (some message) }

def pollSucceeded (provider : String) (listener : Listener) : Listener :=
  { listener with lastError := Function.update listener.lastError provider none }

def note (key : String) (listener : Listener) : Listener :=
  { listener with delivered := key :: listener.delivered }

end Listener

/-- What `deliver` makes of an answer. -/
inductive Result where
  | delivered
  | willRetry
  | givenUp
deriving DecidableEq, Repr

def request (forwardTo : String) (delivery : Delivery) : Request where
  url := s!"{forwardTo}/v1/webhooks/{delivery.provider}"
  headers := ("Content-Type", "application/json") :: delivery.headers
  body := delivery.body

/-- `Listener.deliver`, after the request. -/
def Listener.deliver (delivery : Delivery) (answer : Answer) (listener : Listener) :
    Listener × Result :=
  let label := s!"{delivery.provider} {delivery.type} {delivery.reference}"
  if answer.ok then
    let listener := listener.note delivery.key
    let listener := { listener with attempts := Function.update listener.attempts delivery.key none }
    (listener.say s!"→ {label}  [{answer.outcome}]", .delivered)
  else
    let attempts := (listener.attempts delivery.key).getD 0 + 1
    let listener :=
      { listener with attempts := Function.update listener.attempts delivery.key (some attempts) }
    if attempts ≥ MAX_DELIVERY_ATTEMPTS then
      ((listener.note delivery.key).say
        s!"✗ {label}  [{answer.outcome}] (giving up after {attempts} tries)", .givenUp)
    else (listener.say s!"✗ {label}  [{answer.outcome}] (will retry)", .willRetry)

/-- Where `tick` is, with the sources and deliveries still to come. -/
inductive Pc (ι : Type) where
  | idle
  | polling (baseline : Bool) (sources : List ι)
  | delivering (baseline : Bool) (deliveries : List Delivery) (sources : List ι)
deriving DecidableEq, Repr

/-- A request that was sent. -/
structure Post where
  delivery : Delivery
  request : Request
  answer : Answer
  result : Result
deriving DecidableEq, Repr

/-- The listener, what the sources have, what they had when the first tick began, and what was posted,
the oldest first. -/
structure Console (ι : Type) where
  listener : Listener
  pc : Pc ι
  events : ι → List Delivery
  atStart : ι → List String
  posts : List Post

variable {ι : Type} [DecidableEq ι]

namespace Console

/-- Sources with events, before the first tick. -/
def start (events : ι → List Delivery) : Console ι := ⟨.start, .idle, events, fun _ => [], []⟩

/-- The keys of what a source has. -/
def keys (c : Console ι) (i : ι) : List String := (c.events i).map (·.key)

def tick (options : ListenerOptions ι) (c : Console ι) : Option (Console ι) :=
  match c.pc with
  | .idle =>
    let baseline := !c.listener.started && !options.replay
    some { c with
      listener := { c.listener with started := true }
      pc := .polling baseline options.sources
      atStart := if c.listener.started then c.atStart else c.keys }
  | _ => none

/-- `source.poll`: it lists everything, or it fails with a message. -/
def poll (options : ListenerOptions ι) (c : Console ι) (failure : Option String) :
    Option (Console ι) :=
  match c.pc with
  | .polling baseline (i :: sources) =>
    match failure with
    | none =>
      some { c with
        listener := c.listener.pollSucceeded (options.provider i)
        pc := .delivering baseline (c.events i) sources }
    | some message =>
      some { c with
        listener := c.listener.pollFailed (options.provider i) message
        pc := .polling baseline sources }
  | _ => none

/-- The statements that ask nobody. -/
def advance (c : Console ι) : Option (Console ι) :=
  match c.pc with
  | .polling _ [] => some { c with pc := .idle }
  | .delivering baseline [] sources => some { c with pc := .polling baseline sources }
  | .delivering baseline (delivery :: deliveries) sources =>
    if delivery.key ∈ c.listener.delivered then
      some { c with pc := .delivering baseline deliveries sources }
    else if baseline then
      some { c with
        listener := c.listener.note delivery.key
        pc := .delivering baseline deliveries sources }
    else none
  | _ => none

/-- A delivery is posted. -/
def post (options : ListenerOptions ι) (c : Console ι) (answer : Answer) : Option (Console ι) :=
  match c.pc with
  | .delivering false (delivery :: deliveries) sources =>
    if delivery.key ∈ c.listener.delivered then none
    else
      let (listener, result) := c.listener.deliver delivery answer
      some { c with
        listener
        pc := .delivering false deliveries sources
        posts := c.posts ++ [⟨delivery, request options.forwardTo delivery, answer, result⟩] }
  | _ => none

/-- What the environment decides. -/
inductive Action (ι : Type) where
  | happen (i : ι) (delivery : Delivery)
  | tick
  | poll (failure : Option String)
  | advance
  | post (answer : Answer)
deriving DecidableEq, Repr

def step (options : ListenerOptions ι) : Action ι → Console ι → Option (Console ι)
  | .happen i delivery, c =>
    some { c with events := Function.update c.events i (c.events i ++ [delivery]) }
  | .tick, c => c.tick options
  | .poll failure, c => c.poll options failure
  | .advance, c => c.advance
  | .post answer, c => c.post options answer

/-- Everything that can happen in steps that `Admits` lets happen. -/
def Reaches (options : ListenerOptions ι) (Admits : Action ι → Console ι → Prop) :
    Console ι → Console ι → Prop :=
  Schedule.Reaches (step options) Admits

end Console

end Finstack.Cli
