import Finstack.Foundation.Schedule
import Finstack.Model.PaymentProviders.Http
import Finstack.Model.Ledger.Types
import Mathlib.Logic.Function.Basic

/-! # Emails about domain events

`NotificationsService.handle`, statement by statement, for any number of handlings at once. Every
statement commits by itself. What an event's rules and their recipients are is up to the environment,
and so is what becomes of an email that is handed to the transport; what the transport has accepted
is kept beside the table.
-/

namespace Finstack.Notifications

open Foundation PaymentProviders

inductive EmailNotificationStatus where
  | pending
  | sent
  | failed
deriving DecidableEq, Repr

/-- What an email is about: the unique index of `email_notifications`. -/
structure EmailKey where
  eventId : Uuid
  template : String
  recipientUserId : Uuid
deriving DecidableEq, Repr

structure EmailNotification where
  id : Uuid
  key : EmailKey
  toEmail : String
  subject : String
  status : EmailNotificationStatus
  attempts : Nat
  lastError : Option String := none
  sentAt : Option Nat := none
deriving DecidableEq, Repr

/-- What an email says; whom it is for is looked up. -/
structure NotificationRule where
  template : String
  subject : String
  paragraphs : List String
  reference : Option String
deriving DecidableEq, Repr

structure User where
  id : Uuid
  email : String
  firstName : Option String
  active : Bool
deriving DecidableEq, Repr

structure RenderedEmail where
  subject : String
  text : String
  html : String
deriving DecidableEq, Repr

/-- What the transport is given: whom the email is for, and the email. -/
structure EmailMessage extends RenderedEmail where
  recipient : String
deriving DecidableEq, Repr

/-! ## What an email looks like -/

def escapeHtml (value : String) : String :=
  String.join <| value.toList.map fun
    | '&' => "&amp;"
    | '<' => "&lt;"
    | '>' => "&gt;"
    | '"' => "&quot;"
    | '\'' => "&#39;"
    | c => String.singleton c

/-- An empty name or reference is left out like a missing one. -/
def renderEmail (subject : String) (greetingName : Option String) (paragraphs : List String)
    (reference : Option String) : RenderedEmail :=
  let greeting := match greetingName.filter (· ≠ "") with
    | some name => s!"Hi {name},"
    | none => "Hello,"
  let lines := greeting :: paragraphs ++
    ((reference.filter (· ≠ "")).map fun text => s!"Reference: {text}").toList
  { subject := subject
    text := "\n\n".intercalate lines ++ "\n"
    html := "<!doctype html><html><body style=\"font-family:system-ui,sans-serif;" ++
      "line-height:1.5;color:#111\">" ++
      String.join (lines.map fun line => "<p>" ++ escapeHtml line ++ "</p>") ++ "</body></html>" }

/-! ## Handlings -/

/-- The loops of `handle`: the rule, the recipients and rules still to come, and what was sent. -/
structure Loop where
  rule : NotificationRule
  recipients : List User
  rules : List NotificationRule
  sent : Nat
deriving DecidableEq, Repr

/-- Where a handling is, with what it has read. -/
inductive Pc where
  /-- The loop over the rules. -/
  | rules (rules : List NotificationRule) (sent : Nat)
  /-- The loop over a rule's recipients. -/
  | recipients (loop : Loop)
  | insert (user : User) (email : RenderedEmail) (loop : Loop)
  | find (user : User) (email : RenderedEmail) (loop : Loop)
  | send (message : EmailMessage) (record : EmailNotification) (loop : Loop)
  | markSent (record : EmailNotification) (loop : Loop)
  | markFailed (record : EmailNotification) (message : String)
  | returned (sent : Nat)
  | threw
  | crashed
deriving DecidableEq, Repr

/-- The record a handling has read as not sent and has not updated yet. -/
def Pc.record : Pc → Option EmailNotification
  | .send _ record _ | .markSent record _ | .markFailed record _ => some record
  | _ => none

/-- What becomes of an email handed to the transport. -/
inductive Sending where
  | accepted
  /-- The transport throws, whether it has accepted the email or not. -/
  | failed (message : String) (accepted : Bool)
deriving DecidableEq, Repr

/-- The table with the ids it has given, every handling, the emails the transport has accepted, and
those acceptances that nothing records: the transport threw all the same, or the handling ended
before its update. -/
structure System (ι : Type) where
  now : Nat
  ids : List Uuid
  rows : EmailKey → Option EmailNotification
  handlings : ι → Option (Uuid × Pc)
  accepted : List (EmailKey × EmailMessage)
  unrecorded : List EmailKey

variable {ι : Type} [DecidableEq ι]

namespace System

def start (now : Nat) : System ι := ⟨now, [], fun _ => none, fun _ => none, [], []⟩

def goto (s : System ι) (i : ι) (eventId : Uuid) (pc : Pc) : System ι :=
  { s with handlings := Function.update s.handlings i (some (eventId, pc)) }

def emailKey (eventId : Uuid) (rule : NotificationRule) (user : User) : EmailKey :=
  ⟨eventId, rule.template, user.id⟩

/-- `update(record.id, ...)` -/
def update (s : System ι) (id : Uuid) (patch : EmailNotification → EmailNotification) : System ι :=
  { s with rows := fun key => (s.rows key).map fun row => if row.id = id then patch row else row }

/-- `INSERT ... ON CONFLICT DO NOTHING` -/
def insert (s : System ι) (i : ι) (id : Uuid) (eventId : Uuid) : Pc → Option (System ι)
  | .insert user email loop =>
    let key := emailKey eventId loop.rule user
    if id ∈ s.ids then none
    else if (s.rows key).isSome then some (s.goto i eventId (.find user email loop))
    else
      let row : EmailNotification := {
        id := id
        key := key
        toEmail := user.email
        subject := String.ofList (slice 200 email.subject.toList)
        status := .pending
        attempts := 0 }
      some { s.goto i eventId (.find user email loop) with
        ids := id :: s.ids
        rows := Function.update s.rows key (some row) }
  | _ => none

/-- The statements that nobody else decides. -/
def advance (s : System ι) (i : ι) (eventId : Uuid) : Pc → Option (System ι)
  | .rules [] sent => some (s.goto i eventId (.returned sent))
  | .recipients ⟨_, [], rules, sent⟩ => some (s.goto i eventId (.rules rules sent))
  | .recipients ⟨rule, user :: recipients, rules, sent⟩ =>
    let loop := ⟨rule, recipients, rules, sent⟩
    let email := renderEmail rule.subject user.firstName rule.paragraphs rule.reference
    if user.active then some (s.goto i eventId (.insert user email loop))
    else some (s.goto i eventId (.recipients loop))
  | .find user email loop =>
    match s.rows (emailKey eventId loop.rule user) with
    | none => some (s.goto i eventId .threw)
    | some record =>
      if record.status = .sent then some (s.goto i eventId (.recipients loop))
      else some (s.goto i eventId (.send { email with recipient := user.email } record loop))
  | .markSent record loop =>
    some ((s.update record.id fun row => { row with
      status := .sent
      attempts := record.attempts + 1
      lastError := none
      sentAt := some s.now }).goto i eventId (.recipients { loop with sent := loop.sent + 1 }))
  | .markFailed record message =>
    some ((s.update record.id fun row => { row with
      status := .failed
      attempts := record.attempts + 1
      lastError := some (String.ofList (slice 1000 message.toList)) }).goto i eventId .threw)
  | _ => none

/-- `transport.send` -/
def transport (s : System ι) (i : ι) (eventId : Uuid) (sending : Sending) : Pc → Option (System ι)
  | .send message record loop =>
    match sending with
    | .accepted =>
      some { s.goto i eventId (.markSent record loop) with
        accepted := (record.key, message) :: s.accepted }
    | .failed error true =>
      some { s.goto i eventId (.markFailed record error) with
        accepted := (record.key, message) :: s.accepted
        unrecorded := record.key :: s.unrecorded }
    | .failed error false => some (s.goto i eventId (.markFailed record error))
  | _ => none

/-- A handling ends where it is; what it had to record stays unrecorded. -/
def stop (s : System ι) (i : ι) (eventId : Uuid) (pc next : Pc) : System ι :=
  match pc with
  | .markSent record _ => { s.goto i eventId next with unrecorded := record.key :: s.unrecorded }
  | _ => s.goto i eventId next

/-- What the environment decides. -/
inductive Action (ι : Type) where
  | tick (now : Nat)
  /-- The event's job is worked on, with what its rules say. -/
  | handle (i : ι) (eventId : Uuid) (rules : List NotificationRule)
  /-- The next rule's recipients are looked up. -/
  | recipients (i : ι) (users : List User)
  | insert (i : ι) (id : Uuid)
  | advance (i : ι)
  | transport (i : ι) (sending : Sending)
  /-- A statement that the database does not execute. -/
  | databaseFails (i : ι)
  /-- A handling ends, or does not hear what became of its statement. -/
  | crash (i : ι)
deriving DecidableEq, Repr

def step : Action ι → System ι → Option (System ι)
  | .tick now, s => if s.now ≤ now then some { s with now } else none
  | .handle i eventId rules, s =>
    if (s.handlings i).isNone then some (s.goto i eventId (.rules rules 0)) else none
  | .recipients i users, s => (s.handlings i).bind fun (eventId, pc) =>
    match pc with
    | .rules (rule :: rules) sent => some (s.goto i eventId (.recipients ⟨rule, users, rules, sent⟩))
    | _ => none
  | .insert i id, s => (s.handlings i).bind fun (eventId, pc) => s.insert i id eventId pc
  | .advance i, s => (s.handlings i).bind fun (eventId, pc) => s.advance i eventId pc
  | .transport i sending, s =>
    (s.handlings i).bind fun (eventId, pc) => s.transport i eventId sending pc
  | .databaseFails i, s => (s.handlings i).bind fun (eventId, pc) =>
    match pc with
    | .rules (_ :: _) _ | .insert _ _ _ | .find _ _ _ | .markSent _ _ | .markFailed _ _ =>
      some (s.stop i eventId pc .threw)
    | _ => none
  | .crash i, s => (s.handlings i).map fun (eventId, pc) => s.stop i eventId pc .crashed

/-- Everything that can happen in steps that `Admits` lets happen. -/
def Reaches (Admits : Action ι → System ι → Prop) : System ι → System ι → Prop :=
  Schedule.Reaches step Admits

end System

end Finstack.Notifications
