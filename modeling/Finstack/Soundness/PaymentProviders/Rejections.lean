import Finstack.Model.PaymentProviders.Adapters

/-! # What the adapters call a rejection

A money-moving call sends at most one request that moves money, after requests that do not, and its
answer alone decides whether the call is rejected. `rejection_refused_iff` compares that with what
the answer says: the answers that are taken for a rejection without being one are `misreads`.
-/

namespace Finstack.PaymentProviders

open Foundation
open Foundation.Exchange (Transcript Runs Quiet Decisive)

/-- A POST that is not a request for an access token. -/
def movesMoney (r : JsonRequest) : Prop :=
  r.method = .POST ∧ ∀ field ∈ r.form.getD [], field.1 ≠ "grant_type"

/-- A 4xx other than 429. -/
def refusal (status : Nat) : Bool := 400 ≤ status && status ≤ 499 && status != 429

def Answer.refuses : Answer → Bool
  | .answered status _ => refusal status
  | _ => false

/-- The request that moves money was refused, or was never sent. -/
def DefinitelyRefused (sent : Transcript JsonRequest Answer) : Prop :=
  ∀ x ∈ sent, movesMoney x.1 → x.2.refuses = true

variable {α β : Type}

def Rejected (ended : Except Thrown α) : Prop := ∃ e, ended = .error e ∧ isRejection e = true

/-- A call is rejected, and its hold released, only after a definite refusal. -/
structure MoneyCall.Careful (call : MoneyCall) (sent : Transcript JsonRequest Answer)
    (ended : Except Thrown MoneyResult) : Prop where
  raised : Rejected ended → DefinitelyRefused sent
  released : ∀ thrown submittedAt, ended = .error thrown →
    call.releases thrown submittedAt = true → DefinitelyRefused sent

/-! ## Answers that are misread -/

def Json.isNull : Json → Bool
  | .null => true
  | _ => false

/-- The text of the envelope's message. -/
def hasMessageText (body : Json) : Bool :=
  ((body.field "message").or (some (.string "request not successful"))).toText.isSome

/-- An envelope that the adapter turns down, whatever the status. -/
def MoneyCall.turnsDown (call : MoneyCall) (body : Json) : Bool :=
  match call with
  | .paystackRefund _ | .paystackTransfer _ =>
    !body.isNull && (!(body.field "status").truthy || !(body.field "data").truthy) &&
      hasMessageText body
  | .flutterwaveRefund _ | .flutterwaveTransfer _ =>
    !body.isNull && (!(body.field "status").isString "success" || !(body.field "data").truthy) &&
      hasMessageText body
  | _ => false

section

variable (parse : String → Option Json)

/-- No refusal, and yet taken for one: a body that is not JSON below 500, an envelope that is turned
down with a 2xx, and JSON with a status that is neither a success nor an error. -/
def MoneyCall.misreads (call : MoneyCall) : Answer → Bool
  | .answered status text =>
    !refusal status &&
      match parseBody parse text with
      | none => decide (status < 500)
      | some body =>
        if isOk status then call.turnsDown body
        else decide (status < 400) && (providerMessage body).toBool
  | _ => false

/-- The adapter's check of the body. -/
def MoneyCall.check : MoneyCall → Json → Except Thrown Json
  | .paystackRefund _ | .paystackTransfer _ => Paystack.check
  | .flutterwaveRefund _ | .flutterwaveTransfer _ => Flutterwave.check
  | _ => .ok

/-- What an answer to the request that moves money is taken for. -/
def reading (check : Json → Except Thrown Json) (answer : Answer) : Except Thrown Json :=
  (classify parse answer).bind fun response => check response.body

end

/-! ## Errors that are no rejection -/

/-- It fails, if at all, with what is not a rejection. -/
def Mild (x : Except Thrown α) : Prop := ∀ e, x = .error e → isRejection e = false

theorem Mild.ok (a : α) : Mild (.ok a) := by
  intro e same
  cases same

theorem Mild.typeError : Mild (.error .typeError : Except Thrown α) := by
  intro e same
  cases same
  rfl

theorem Mild.bind {x : Except Thrown α} {g : α → Except Thrown β} (first : Mild x)
    (second : ∀ a, Mild (g a)) : Mild (x >>= g) := by
  intro e same
  cases x with
  | error e' =>
    obtain rfl : e' = e := Except.error.inj same
    exact first e' rfl
  | ok a => exact second a e same

theorem prop_mild (name : String) (value : Value) : Mild (prop name value) := by
  unfold prop
  split
  · exact .typeError
  · exact .typeError
  · exact .ok _

theorem textOf_mild (value : Value) : Mild (textOf value) := by
  unfold textOf
  split
  · exact .typeError
  · exact .ok _

theorem stringOf_mild (value : Value) : Mild (stringOf value) := by
  unfold stringOf
  split
  · exact .ok _
  · exact .typeError

theorem shortText_mild (value : Value) : Mild (shortText value) := by
  unfold shortText
  split
  · exact .typeError
  · exact .ok _

theorem providerMessage_mild (body : Json) : Mild (providerMessage body) := by
  unfold providerMessage
  split_ifs
  · exact shortText_mild _
  · split
    · split_ifs
      · exact shortText_mild _
      · exact .ok _
    · exact .ok _

theorem Rejected.bind_mild {x : Except Thrown α} {g : α → Except Thrown β}
    (mild : ∀ a, Mild (g a)) : Rejected (x.bind g) ↔ Rejected x := by
  cases x with
  | error e =>
    constructor
    · rintro ⟨e', same, rejection⟩
      cases same
      exact ⟨e, rfl, rejection⟩
    · rintro ⟨e', same, rejection⟩
      cases same
      exact ⟨e, rfl, rejection⟩
  | ok a =>
    constructor
    · rintro ⟨e, same, rejection⟩
      rw [mild a e same] at rejection
      cases rejection
    · rintro ⟨e, same, -⟩
      cases same

namespace Paystack

theorem refundResult_mild (body : Json) : Mild (refundResult body) :=
  (prop_mild _ _).bind fun _ => (textOf_mild _).bind fun _ => (prop_mild _ _).bind fun _ => .ok _

theorem transferResult_mild (body : Json) : Mild (transferResult body) :=
  (prop_mild _ _).bind fun _ => (prop_mild _ _).bind fun _ => (prop_mild _ _).bind fun _ => .ok _

end Paystack

namespace Flutterwave

theorem mapRefundStatus_mild (status : Value) : Mild (mapRefundStatus status) := by
  refine (stringOf_mild status).bind fun text => ?_
  dsimp only
  split_ifs
  · exact .ok _
  · exact .ok _
  · exact .ok _

theorem mapTransferStatus_mild (status : Value) : Mild (mapTransferStatus status) := by
  refine (stringOf_mild status).bind fun text => ?_
  split_ifs
  · exact .ok _
  · exact .ok _
  · exact .ok _

theorem refundResult_mild (body : Json) : Mild (refundResult body) :=
  (prop_mild _ _).bind fun _ => (textOf_mild _).bind fun _ => (prop_mild _ _).bind fun _ =>
    (mapRefundStatus_mild _).bind fun _ => .ok _

theorem transferResult_mild (body : Json) : Mild (transferResult body) :=
  (prop_mild _ _).bind fun _ => (mapTransferStatus_mild _).bind fun _ =>
    (prop_mild _ _).bind fun _ => (textOf_mild _).bind fun _ => (prop_mild _ _).bind fun _ => .ok _

end Flutterwave

theorem Stripe.refundResult_mild (refund : Json) : Mild (Stripe.refundResult refund) :=
  (prop_mild _ _).bind fun _ => (prop_mild _ _).bind fun _ => .ok _

namespace PayPal

theorem refundResult_mild (refund : Json) : Mild (refundResult refund) :=
  (prop_mild _ _).bind fun _ => (prop_mild _ _).bind fun _ => .ok _

theorem payoutResult_mild (batch : Json) : Mild (payoutResult batch) := by
  refine (prop_mild _ _).bind fun items => (prop_mild _ _).bind fun header =>
    (prop_mild _ _).bind fun batchStatus => (prop_mild _ _).bind fun batchId => ?_
  split_ifs
  · exact (textOf_mild _).bind fun _ => .ok _
  · exact .ok _
  · exact (textOf_mild _).bind fun _ => .ok _
  · exact .ok _

end PayPal

/-! ## Which request settles a call -/

section

variable {parse : String → Option Json} {config : ProviderConfig} {r : JsonRequest}
variable {envelope : Json → Except Thrown Json}

/-- The answer to the request that moves money settles whether the call is rejected. -/
def Settles (parse : String → Option Json) (check : Json → Except Thrown Json) (answer : Answer)
    (ended : Except Thrown α) : Prop :=
  Rejected ended ↔ Rejected (reading parse check answer)

theorem movesMoney_of_body {r : JsonRequest} (post : r.method = .POST) (plain : r.form = none) :
    movesMoney r := by
  refine ⟨post, fun field mem => ?_⟩
  rw [plain] at mem
  cases mem

theorem not_movesMoney_of_get {r : JsonRequest} (get : r.method = .GET) : ¬ movesMoney r := by
  rintro ⟨post, -⟩
  rw [get] at post
  cases post

theorem request_quiet (still : ¬ movesMoney r) : Quiet movesMoney (request parse r) := by
  unfold request
  split_ifs
  · exact .done _
  · exact .send still fun _ => .done _

theorem request_decisive (moves : movesMoney r) :
    Decisive movesMoney (fun answer ended => ended = classify parse answer) (request parse r) := by
  unfold request
  split_ifs
  · exact (Quiet.done _).decisive
  · exact .send moves fun _ => rfl

/-- The answer's body, checked. -/
theorem request_check_decisive (moves : movesMoney r) :
    Decisive movesMoney (Settles parse envelope)
      (request parse r >>= fun response => lift (envelope response.body)) := by
  refine (request_decisive moves).bind_done fun answer ended same => ?_
  subst same
  exact Iff.rfl

/-- What a call makes of the checked body does not turn it into a rejection. -/
theorem Decisive.then_mild {c : Http α} {g : α → Except Thrown β}
    (first : Decisive movesMoney (Settles parse envelope) c) (mild : ∀ a, Mild (g a)) :
    Decisive movesMoney (Settles parse envelope) (c >>= fun a => lift (g a)) :=
  first.bind_done fun _ _ settled => (Rejected.bind_mild mild).trans settled

theorem lift_quiet (x : Except Thrown α) : Quiet movesMoney (lift x) := .done x

namespace Paystack

theorem call_decisive (path : String) (body : Option Json) :
    Decisive movesMoney (Settles parse check) (call parse config .POST path body) :=
  request_check_decisive (movesMoney_of_body rfl rfl)

theorem refundPayment_decisive (input : RefundPaymentInput) :
    Decisive movesMoney (Settles parse check) (refundPayment parse config input) :=
  Decisive.then_mild (call_decisive _ _) refundResult_mild

theorem initiateTransfer_decisive (input : InitiatePayoutInput) :
    Decisive movesMoney (Settles parse check) (initiateTransfer parse config input) :=
  Decisive.then_mild (call_decisive _ _) transferResult_mild

end Paystack

namespace Flutterwave

theorem call_decisive (path : String) (body : Option Json) :
    Decisive movesMoney (Settles parse check) (call parse config .POST path body) :=
  request_check_decisive (movesMoney_of_body rfl rfl)

theorem transactionByReference_quiet (txRef : String) :
    Quiet movesMoney (transactionByReference parse config txRef) := by
  refine Quiet.bind (Quiet.bind (request_quiet (not_movesMoney_of_get rfl)) fun response => ?_)
    fun body => .done _
  exact lift_quiet _

theorem refundPayment_decisive (input : RefundPaymentInput) :
    Decisive movesMoney (Settles parse check) (refundPayment parse config input) := by
  refine (transactionByReference_quiet _).bind_decisive fun transaction => ?_
  refine (lift_quiet _).bind_decisive fun id => (lift_quiet _).bind_decisive fun amount => ?_
  exact Decisive.then_mild (call_decisive _ _) refundResult_mild

theorem initiateTransfer_decisive (input : InitiatePayoutInput) :
    Decisive movesMoney (Settles parse check) (initiateTransfer parse config input) := by
  refine (lift_quiet _).bind_decisive fun amount => ?_
  exact Decisive.then_mild (call_decisive _ _) transferResult_mild

end Flutterwave

namespace Stripe

theorem refundPayment_decisive (input : RefundPaymentInput) :
    Decisive movesMoney (Settles parse .ok) (refundPayment parse config input) := by
  refine Quiet.bind_decisive ?_ fun session => (lift_quiet _).bind_decisive fun intent => ?_
  · exact (request_quiet (not_movesMoney_of_get rfl)).bind fun response => .done _
  · have moves : Decisive movesMoney (Settles parse .ok) (call parse config .POST "/v1/refunds"
        (some [("payment_intent", intent),
          ("amount", some (.string (toString input.amount))),
          ("metadata[finstack_reference]", some (.string input.reference))])
        (some ("finstack-refund-" ++ input.reference))) := by
      refine request_check_decisive ⟨rfl, ?_⟩
      simp
    exact Decisive.then_mild moves refundResult_mild

end Stripe

namespace PayPal

theorem accessToken_quiet (token : Option Value) (fresh : Bool) :
    Quiet movesMoney (accessToken parse config token fresh) := by
  unfold accessToken
  split
  · exact .done _
  · refine (request_quiet ?_).bind fun response => (lift_quiet _).bind fun value =>
      (lift_quiet _).bind fun _ => .done _
    rintro ⟨-, other⟩
    exact other _ (List.mem_singleton_self _) rfl

theorem call_quiet (token : Option Value) (fresh : Bool) (path : String) (body : Option Json)
    (requestId : Option String) :
    Quiet movesMoney (call parse config token fresh .GET path body requestId) :=
  (accessToken_quiet _ _).bind fun _ => (lift_quiet _).bind fun _ =>
    (request_quiet (not_movesMoney_of_get rfl)).bind fun _ => .done _

theorem call_decisive (token : Option Value) (fresh : Bool) (path : String) (body : Option Json)
    (requestId : Option String) :
    Decisive movesMoney (Settles parse .ok)
      (call parse config token fresh .POST path body requestId) := by
  refine (accessToken_quiet _ _).bind_decisive fun access => (lift_quiet _).bind_decisive fun _ => ?_
  refine (request_decisive (movesMoney_of_body rfl rfl)).bind_done fun answer ended same => ?_
  subst same
  exact (Rejected.bind_mild fun _ => .ok _).trans (Rejected.bind_mild fun _ => .ok _).symm

theorem refundPayment_decisive (token : Option Value) (fresh freshAgain : Bool)
    (input : RefundPaymentInput) :
    Decisive movesMoney (Settles parse .ok)
      (refundPayment parse config token fresh freshAgain input) := by
  refine (call_quiet _ _ _ _ _).bind_decisive fun found => ?_
  refine (lift_quiet _).bind_decisive fun id => (lift_quiet _).bind_decisive fun amount => ?_
  exact Decisive.then_mild (call_decisive _ _ _ _ _) fun made => refundResult_mild made.2

theorem initiatePayout_decisive (token : Option Value) (fresh : Bool)
    (input : InitiatePayoutInput) :
    Decisive movesMoney (Settles parse .ok) (initiatePayout parse config token fresh input) := by
  refine (lift_quiet _).bind_decisive fun value => ?_
  exact Decisive.then_mild (call_decisive _ _ _ _ _) fun made => payoutResult_mild made.2

end PayPal

/-- Every money-moving call, whatever the provider answers. -/
theorem MoneyCall.run_decisive (call : MoneyCall) :
    Decisive movesMoney (Settles parse call.check) (call.run parse config) := by
  have pack : ∀ {γ : Type} {c : Http γ} {envelope : Json → Except Thrown Json}
      (f : γ → MoneyResult), Decisive movesMoney (Settles parse envelope) c →
        Decisive movesMoney (Settles parse envelope) (f <$> c) :=
    fun f first => Decisive.then_mild first fun a => Mild.ok (f a)
  cases call with
  | paystackRefund input => exact pack _ (Paystack.refundPayment_decisive input)
  | paystackTransfer input => exact pack _ (Paystack.initiateTransfer_decisive input)
  | flutterwaveRefund input => exact pack _ (Flutterwave.refundPayment_decisive input)
  | flutterwaveTransfer input => exact pack _ (Flutterwave.initiateTransfer_decisive input)
  | stripeRefund input => exact pack _ (Stripe.refundPayment_decisive input)
  | paypalRefund token fresh freshAgain input =>
    exact pack _ (PayPal.refundPayment_decisive token fresh freshAgain input)
  | paypalPayout token fresh input =>
    exact pack _ (PayPal.initiatePayout_decisive token fresh input)

end

/-! ## Which answers count as a rejection -/

@[simp] theorem rejected_ok (a : α) : ¬ Rejected (.ok a : Except Thrown α) := by
  rintro ⟨e, same, -⟩
  cases same

@[simp] theorem rejected_error (e : Thrown) :
    Rejected (.error e : Except Thrown α) ↔ isRejection e = true := by
  constructor
  · rintro ⟨e', same, rejection⟩
    cases same
    exact rejection
  · intro rejection
    exact ⟨e, rfl, rejection⟩

theorem prop_nonNull {body : Json} (name : String) (here : body.isNull = false) :
    prop name (some body) = .ok (body.field name) := by
  cases body with
  | null => cases here
  | _ => rfl

/-- Both envelopes: turned down with a message that has a text. -/
theorem envelope_rejected (adapter : String) (turned : Bool) (body : Json) :
    Rejected (do
      if turned then
        let message ← textOf ((body.field "message").or (some (.string "request not successful")))
        throw (.provider ⟨adapter ++ message, false, none⟩)
      return body : Except Thrown Json) ↔ (turned && hasMessageText body) = true := by
  cases turned with
  | false => simp [pure, Except.pure]
  | true =>
    unfold textOf hasMessageText
    cases ((body.field "message").or (some (.string "request not successful"))).toText with
    | none => simp [bind, Except.bind, isRejection]
    | some text => simp [bind, Except.bind, throw, throwThe, MonadExceptOf.throw, isRejection]

theorem check_null (call : MoneyCall) (body : Json) (null : body.isNull = true) :
    ¬ Rejected (call.check body) := by
  cases body with
  | null => cases call <;> simp [MoneyCall.check, Paystack.check, Flutterwave.check, prop, bind,
      Except.bind, isRejection]
  | _ => cases null

theorem Paystack.check_rejected {body : Json} (here : body.isNull = false) :
    Rejected (Paystack.check body) ↔
      ((!(body.field "status").truthy || !(body.field "data").truthy) &&
        hasMessageText body) = true := by
  unfold Paystack.check
  rw [prop_nonNull _ here, prop_nonNull _ here]
  exact envelope_rejected _ _ _

theorem Flutterwave.check_rejected {body : Json} (here : body.isNull = false) :
    Rejected (Flutterwave.check body) ↔
      ((!(body.field "status").isString "success" || !(body.field "data").truthy) &&
        hasMessageText body) = true := by
  unfold Flutterwave.check
  rw [prop_nonNull _ here, prop_nonNull _ here]
  exact envelope_rejected _ _ _

theorem MoneyCall.check_rejected (call : MoneyCall) (body : Json) :
    Rejected (call.check body) ↔ call.turnsDown body = true := by
  cases null : body.isNull with
  | true =>
    refine iff_of_false (check_null call body null) ?_
    cases call <;> simp [turnsDown, null]
  | false =>
    cases call with
    | paystackRefund | paystackTransfer =>
      simpa [turnsDown, check, null] using Paystack.check_rejected null
    | flutterwaveRefund | flutterwaveTransfer =>
      simpa [turnsDown, check, null] using Flutterwave.check_rejected null
    | stripeRefund | paypalRefund | paypalPayout => simp [turnsDown, check]

section

variable (parse : String → Option Json)

/-- The answers that are taken for a rejection without refusing anything. -/
theorem MoneyCall.misreads_iff (call : MoneyCall) (answer : Answer) :
    (Rejected (reading parse call.check answer) ∧ answer.refuses = false) ↔
      call.misreads parse answer = true := by
  cases answer with
  | failed timedOut message => simp [reading, classify, Except.bind, isRejection, misreads]
  | cut status => simp [reading, classify, Except.bind, isRejection, misreads]
  | answered status text =>
    simp only [reading, classify, misreads, Answer.refuses]
    cases parseBody parse text with
    | none => simp [Except.bind, isRejection, and_comm]
    | some body =>
      by_cases ok : isOk status = true
      · have accepted : refusal status = false := by
          simp only [isOk, Bool.and_eq_true, decide_eq_true_eq] at ok
          simp only [refusal, Bool.and_eq_false_iff, decide_eq_false_iff_not]
          omega
        simp [ok, Except.bind, accepted, call.check_rejected body]
      · have refused : ¬ isOk status = true ∧ refusal status = false → (status < 500 ∧ status ≠ 429 ↔
            status < 400) := by
          simp only [isOk, refusal, Bool.and_eq_true, Bool.and_eq_false_iff, decide_eq_true_eq,
            decide_eq_false_iff_not, bne_eq_false_iff_eq]
          omega
        cases message : providerMessage body with
        | error e =>
          have mild := providerMessage_mild body e message
          simp [ok, message, Except.bind, bind, mild, Except.toBool]
        | ok text =>
          simp only [ok, message, Except.bind, bind, isRejection, Except.toBool, rejected_error,
            Bool.not_eq_true', Bool.or_eq_false_iff, decide_eq_false_iff_not, not_le, Bool.and_true,
            Bool.and_eq_true, decide_eq_true_eq, Bool.false_eq_true, if_false]
          constructor
          · rintro ⟨low, unrefused⟩
            exact ⟨unrefused, (refused ⟨ok, unrefused⟩).mp low⟩
          · rintro ⟨unrefused, low⟩
            exact ⟨(refused ⟨ok, unrefused⟩).mpr low, unrefused⟩

end

/-! ## Every exchange -/

theorem MoneyCall.releases_isRejection {call : MoneyCall} {thrown : Thrown}
    {submittedAt : Option Nat} (released : call.releases thrown submittedAt = true) :
    isRejection thrown = true := by
  cases call with
  | paystackTransfer | flutterwaveTransfer | paypalPayout =>
    exact (Bool.and_eq_true_iff.mp released).1
  | paystackRefund | flutterwaveRefund | stripeRefund | paypalRefund => exact released

/-- The decision is the one that the protocol of submissions takes on an adapter's error. -/
theorem payoutReleased_iff_fail (error : PaymentProviderError) (submittedAt : Option Nat) :
    payoutReleased (.provider error) submittedAt = true ↔
      PayoutSubmission.onError error.retryable submittedAt = .fail := by
  cases retryable : error.retryable <;> cases submittedAt <;>
    simp [payoutReleased, isRejection, PayoutSubmission.onError, retryable]

/-- A release is always one of a rejection. -/
theorem MoneyCall.careful_iff {call : MoneyCall} {sent : Transcript JsonRequest Answer}
    {ended : Except Thrown MoneyResult} :
    call.Careful sent ended ↔ (Rejected ended → DefinitelyRefused sent) := by
  refine ⟨Careful.raised, fun raised => ⟨raised, ?_⟩⟩
  rintro thrown submittedAt rfl released
  exact raised ⟨thrown, rfl, releases_isRejection released⟩

/-- In any exchange, a call is careful with its rejection exactly when the answer to its
money-moving request, if it sent one, is none of those that are misread. -/
theorem rejection_refused_iff (parse : String → Option Json) (config : ProviderConfig)
    (call : MoneyCall) (sent : Transcript JsonRequest Answer) (ended : Except Thrown MoneyResult)
    (run : Runs (call.run parse config) sent ended) :
    call.Careful sent ended ↔ ∀ x ∈ sent, movesMoney x.1 → call.misreads parse x.2 = false := by
  rw [MoneyCall.careful_iff]
  obtain none | ⟨before, r, answer, rfl, none, moves, settled⟩ :=
    call.run_decisive sent ended run
  · -- Nothing was sent that moves money.
    exact iff_of_true (fun _ x mem here => absurd here (none x mem))
      fun x mem here => absurd here (none x mem)
  have last : ∀ P : Answer → Prop,
      (∀ x ∈ before ++ [(r, answer)], movesMoney x.1 → P x.2) ↔ P answer := by
    intro P
    constructor
    · intro all
      exact all (r, answer) (List.mem_append_right _ (List.mem_singleton_self _)) moves
    · intro here x mem moved
      obtain mem | mem := List.mem_append.mp mem
      · exact absurd moved (none x mem)
      · obtain rfl := List.mem_singleton.mp mem
        exact here
  have misread := call.misreads_iff parse answer
  unfold Settles at settled
  rw [DefinitelyRefused, last (fun a => a.refuses = true),
    last (fun a => call.misreads parse a = false), settled]
  cases refused : answer.refuses with
  | true =>
    simp only [refused, Bool.true_eq_false, and_false, false_iff, Bool.not_eq_true] at misread
    exact iff_of_true (fun _ => rfl) misread
  | false =>
    simp only [refused, and_true] at misread
    rw [misread, Bool.false_eq_true, imp_false, Bool.not_eq_true]

/-! ### Two exchanges with Paystack -/

def paystack : ProviderConfig := ⟨"https://api.paystack.co", "sk_test", 10000⟩

def refundInput : RefundPaymentInput := ⟨"trx_1", 5000, "NGN", "rfd_1"⟩

def refusalText : String :=
  "\x7b\"status\":false,\"message\":\"Transaction has been fully reversed\"\x7d"

/-- `JSON.parse` on the texts of the two exchanges. -/
def parseSample (text : String) : Option Json :=
  if text = refusalText then
    some (.object [("status", .bool false),
      ("message", .string "Transaction has been fully reversed")])
  else none

theorem runs_refusal : ∃ r, movesMoney r ∧
    Runs ((MoneyCall.paystackRefund refundInput).run parseSample paystack)
      [(r, .answered 400 refusalText)]
      (.error (.provider ⟨"HTTP 400: Transaction has been fully reversed", false, some 400⟩)) :=
  ⟨_, movesMoney_of_body rfl rfl, .send _ (.done (.error _))⟩

/-- A refund that Paystack refuses with a 400. -/
theorem refused_with_400 : ∃ sent ended,
    Runs ((MoneyCall.paystackRefund refundInput).run parseSample paystack) sent ended ∧
      Rejected ended ∧ (MoneyCall.paystackRefund refundInput).Careful sent ended := by
  obtain ⟨r, -, run⟩ := runs_refusal
  refine ⟨_, _, run, ⟨_, rfl, rfl⟩, ?_⟩
  refine (rejection_refused_iff parseSample paystack _ _ _ run).mpr fun x mem _ => ?_
  obtain rfl := List.mem_singleton.mp mem
  rfl

/-- The refund may have been made: the page came with a 200. -/
theorem rejected_with_200 : ∃ sent ended,
    Runs ((MoneyCall.paystackRefund refundInput).run parseSample paystack) sent ended ∧
      ¬ (MoneyCall.paystackRefund refundInput).Careful sent ended := by
  have run : ∃ r, movesMoney r ∧
      Runs ((MoneyCall.paystackRefund refundInput).run parseSample paystack)
        [(r, .answered 200 "<html>")]
        (.error (.provider ⟨"Non-JSON response (HTTP 200)", false, none⟩)) :=
    ⟨_, movesMoney_of_body rfl rfl, .send _ (.done (.error _))⟩
  obtain ⟨r, moves, run⟩ := run
  refine ⟨_, _, run, fun careful => ?_⟩
  have refused := careful.raised ⟨_, rfl, rfl⟩ _ (List.mem_singleton_self _) moves
  cases refused

end Finstack.PaymentProviders
