import Finstack.Foundation.Schedule
import Finstack.Model.OutboundWebhooks.Signature
import Mathlib.Logic.Function.Basic

/-! # Rotating signing secrets

`OutboundWebhooksService.rotateSecret` for one endpoint, any number of calls at once, and the
deliveries that are signed meanwhile, statement by statement. Whatever stops on its way is never
advanced again. Next to the rows stands what was issued, newest first, and what was signed.
-/

namespace Finstack.OutboundWebhooks.Secrets

open Foundation

/-! ## Sealing -/

/-- AES-256-GCM under the data encryption key, what it yields in base64url. -/
structure Cipher where
  /-- The ciphertext and the tag. -/
  encrypt (iv plaintext : Text) : Text × Text
  decrypt (iv ciphertext tag : Text) : Option Text
  decrypt_encrypt : ∀ iv plaintext,
    decrypt iv (encrypt iv plaintext).1 (encrypt iv plaintext).2 = some plaintext
  alphabet : ∀ iv plaintext, '.' ∉ (encrypt iv plaintext).1 ∧ '.' ∉ (encrypt iv plaintext).2
  nonempty : ∀ iv plaintext, plaintext ≠ [] →
    (encrypt iv plaintext).1 ≠ [] ∧ (encrypt iv plaintext).2 ≠ []

/-- Random bytes in base64url. -/
structure Iv where
  text : Text
  alphabet : '.' ∉ text
  nonempty : text ≠ []
deriving DecidableEq, Repr

def VERSION : Text := "v1".toList

variable (cipher : Cipher)

def SecretBox.seal (iv : Iv) (plaintext : Text) : Text :=
  let (ciphertext, tag) := cipher.encrypt iv.text plaintext
  ['.'].intercalate [VERSION, iv.text, ciphertext, tag]

/-- None when it throws. -/
def SecretBox.open (sealed_ : Text) : Option Text :=
  match sealed_.splitOn '.' with
  | version :: iv :: ciphertext :: tag :: _ =>
    if version ≠ VERSION ∨ iv = [] ∨ ciphertext = [] ∨ tag = [] then none
    else cipher.decrypt iv ciphertext tag
  | _ => none

/-- `whsec_` and random bytes. -/
def generateWebhookSecret (random : Text) : Text := "whsec_".toList ++ random

/-! ## The endpoint -/

structure Endpoint where
  enabled : Bool := true
  secretSealed : Text
  previousSecretSealed : Option Text := none
  previousSecretExpiresAt : Option Nat := none
  deletedAt : Option Nat := none
deriving DecidableEq, Repr

/-- What a rotation writes. -/
structure Changes where
  secretSealed : Text
  previousSecretSealed : Option Text
  previousSecretExpiresAt : Option Nat
deriving DecidableEq, Repr

def Endpoint.update (endpoint : Endpoint) (changes : Changes) : Endpoint :=
  { endpoint with
    secretSealed := changes.secretSealed
    previousSecretSealed := changes.previousSecretSealed
    previousSecretExpiresAt := changes.previousSecretExpiresAt }

/-- When the grace period of a rotation ends. -/
def graceEnd (graceHours now : Nat) : Nat := now + graceHours * 60 * 60 * 1000

def rotateChanges (graceHours : Nat) (endpoint : Endpoint) (secret : Text) (iv : Iv) (now : Nat) :
    Changes where
  secretSealed := SecretBox.seal cipher iv secret
  previousSecretSealed := if graceHours > 0 then some endpoint.secretSealed else none
  previousSecretExpiresAt := if graceHours > 0 then some (graceEnd graceHours now) else none

/-- None when a secret cannot be opened. -/
def activeSecrets (endpoint : Endpoint) (now : Nat) : Option (List Text) :=
  (SecretBox.open cipher endpoint.secretSealed).bind fun current =>
    match endpoint.previousSecretSealed, endpoint.previousSecretExpiresAt with
    | some previous, some expiresAt =>
      if previous ≠ [] ∧ expiresAt > now then
        (SecretBox.open cipher previous).map fun previous => [current, previous]
      else some [current]
    | _, _ => some [current]

/-! ## Everything at once -/

/-- Where a rotation is, with what it has read. -/
inductive Pc where
  | get
  | prepare (endpoint : Endpoint)
  /-- The changes are made; the UPDATE waits for the row, and the transaction commits. -/
  | commit (endpoint : Endpoint) (secret : Text) (preparedAt : Nat) (changes : Changes)
  | view (number : Nat) (secret : Text)
  | returned (secret : Text)
  | refused
deriving DecidableEq, Repr

structure Rotation where
  graceHours : Nat
  pc : Pc
deriving DecidableEq, Repr

/-- Where an attempt of a delivery is; `seen` says how many secrets were issued when it read. -/
inductive Delivery.Pc where
  | findEndpoint
  /-- The address of the endpoint is being resolved. -/
  | resolve (endpoint : Endpoint) (seen : Nat)
  | send (secrets : List Text) (seen : Nat)
  | sent
  | failed
deriving DecidableEq, Repr

structure Delivery where
  body : Text
  pc : Delivery.Pc
deriving DecidableEq, Repr

/-- A secret that creation or a rotation has stored. -/
structure Issue where
  number : Nat
  secret : Text
  returned : Bool
  /-- When the grace period of the rotation that replaced it ends. -/
  until? : Option Nat
  /-- Every rotation since has stored it next to its own, for as long. -/
  kept : Bool
deriving DecidableEq, Repr

namespace Issue

/-- A rotation replaces the current secret; those before have been replaced. -/
def replaced (graceEnd : Nat) (issue : Issue) : Issue :=
  { issue with until? := some (issue.until?.getD graceEnd) }

/-- Neither replaced nor past its grace. -/
def InGrace (now : Nat) (issue : Issue) : Prop := ∀ end_ ∈ issue.until?, now < end_

/-- A rotation that has read this row stores the secret next to its own, for its whole grace. -/
def KeptBy (graceHours : Nat) (endpoint : Endpoint) (preparedAt : Nat) (issue : Issue) : Prop :=
  0 < graceHours ∧ SecretBox.open cipher endpoint.secretSealed = some issue.secret ∧
    ∀ end_ ∈ issue.until?, end_ ≤ graceEnd graceHours preparedAt

instance (now : Nat) (issue : Issue) : Decidable (issue.InGrace now) :=
  inferInstanceAs (Decidable (∀ end_ ∈ issue.until?, now < end_))

instance (graceHours : Nat) (endpoint : Endpoint) (preparedAt : Nat) (issue : Issue) :
    Decidable (issue.KeptBy cipher graceHours endpoint preparedAt) :=
  inferInstanceAs (Decidable (_ ∧ _ ∧ ∀ end_ ∈ issue.until?, _))

/-- A rotation commits. -/
def afterRotation (graceHours : Nat) (endpoint : Endpoint) (preparedAt : Nat) (issue : Issue) :
    Issue :=
  let issue := issue.replaced (graceEnd graceHours preparedAt)
  { issue with kept := issue.kept && issue.KeptBy cipher graceHours endpoint preparedAt }

end Issue

/-- A delivery as it was signed, with the secrets of which a receiver may know any. -/
structure Sent where
  header : Text
  body : Text
  sentAt : Nat
  due : List Text
deriving DecidableEq, Repr

structure System (ι : Type) where
  now : Nat
  endpoint : Endpoint
  rotations : ι → Option Rotation
  deliveries : ι → Option Delivery
  issued : List Issue
  sent : List Sent

variable {ι : Type} [DecidableEq ι]

namespace System

/-- Creation has committed, and not returned yet. -/
def start (random : Text) (iv : Iv) : System ι where
  now := 0
  endpoint := { secretSealed := SecretBox.seal cipher iv (generateWebhookSecret random) }
  rotations _ := none
  deliveries _ := none
  issued := [⟨0, generateWebhookSecret random, false, none, true⟩]
  sent := []

def rotation (s : System ι) (i : ι) (rotation : Rotation) (pc : Pc) : System ι :=
  { s with rotations := Function.update s.rotations i (some { rotation with pc }) }

def delivery (s : System ι) (i : ι) (delivery : Delivery) (pc : Delivery.Pc) : System ι :=
  { s with deliveries := Function.update s.deliveries i (some { delivery with pc }) }

/-- The secret is returned. -/
def giveOut (s : System ι) (number : Nat) : System ι :=
  { s with issued := s.issued.map fun issue =>
      if issue.number = number then { issue with returned := true } else issue }

/-- The secrets of which a receiver may know any. -/
def due (s : System ι) : List Text :=
  (s.issued.filter fun issue => issue.returned && decide (issue.InGrace s.now)).map (·.secret)

/-- The next statement of the rotation `i`. -/
def advanceRotation (s : System ι) (i : ι) (random : Text) (iv : Iv) (rotation : Rotation) :
    Option (System ι) :=
  match rotation.pc with
  | .get =>
    if s.endpoint.deletedAt.isSome then some (s.rotation i rotation .refused)
    else some (s.rotation i rotation (.prepare s.endpoint))
  | .prepare endpoint =>
    let secret := generateWebhookSecret random
    some (s.rotation i rotation (.commit endpoint secret s.now
      (rotateChanges cipher rotation.graceHours endpoint secret iv s.now)))
  | .commit endpoint secret preparedAt changes =>
    let number := s.issued.length
    some ({ s with
      endpoint := s.endpoint.update changes
      issued := ⟨number, secret, false, none, true⟩ :: s.issued.map
        (Issue.afterRotation cipher rotation.graceHours endpoint preparedAt) }.rotation i rotation
          (.view number secret))
  | .view number secret =>
    if s.endpoint.deletedAt.isSome then some (s.rotation i rotation .refused)
    else some ((s.giveOut number).rotation i rotation (.returned secret))
  | .returned _ | .refused => none

variable (hmac : Hmac) (numerals : Numerals)

/-- The next statement of the attempt `i`. -/
def advanceDelivery (s : System ι) (i : ι) (delivery : Delivery) : Option (System ι) :=
  match delivery.pc with
  | .findEndpoint =>
    if s.endpoint.enabled = false ∨ s.endpoint.deletedAt.isSome then
      some (s.delivery i delivery .failed)
    else some (s.delivery i delivery (.resolve s.endpoint s.issued.length))
  | .resolve endpoint seen =>
    match activeSecrets cipher endpoint s.now with
    | none => some (s.delivery i delivery .failed)
    | some secrets => some (s.delivery i delivery (.send secrets seen))
  | .send secrets _ =>
    let header := signatureHeader hmac numerals secrets delivery.body (s.now / 1000)
    some ({ s with sent := ⟨header, delivery.body, s.now, s.due⟩ :: s.sent }.delivery i delivery
      .sent)
  | .sent | .failed => none

/-- What the environment decides. -/
inductive Action (ι : Type) where
  | tick (now : Nat)
  /-- Creation returns its secret. -/
  | created
  | rotate (i : ι) (graceHours : Nat)
  | rotation (i : ι) (random : Text) (iv : Iv)
  | deliver (i : ι) (body : Text)
  | delivery (i : ι)
  | update (enabled : Bool)
  | remove (now : Nat)
deriving DecidableEq, Repr

/-- The last moment a clock can show. -/
def lastMoment : Nat := 8640000000000000

def step : Action ι → System ι → Option (System ι)
  | .tick now, s => if s.now ≤ now ∧ now ≤ lastMoment then some { s with now } else none
  | .created, s => some (s.giveOut 0)
  | .rotate i graceHours, s =>
    if s.rotations i = none then some (s.rotation i ⟨graceHours, .get⟩ .get) else none
  | .rotation i random iv, s => (s.rotations i).bind (s.advanceRotation cipher i random iv)
  | .deliver i body, s =>
    if s.deliveries i = none then some (s.delivery i ⟨body, .findEndpoint⟩ .findEndpoint) else none
  | .delivery i, s => (s.deliveries i).bind (s.advanceDelivery cipher hmac numerals i)
  | .update enabled, s => some { s with endpoint := { s.endpoint with enabled } }
  | .remove now, s =>
    some { s with endpoint := { s.endpoint with enabled := false, deletedAt := some now } }

/-- Everything that can happen in steps that `Admits` lets happen. -/
def Reaches (Admits : Action ι → System ι → Prop) : System ι → System ι → Prop :=
  Schedule.Reaches (step cipher hmac numerals) Admits

end System

end Finstack.OutboundWebhooks.Secrets
