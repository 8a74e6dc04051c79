import Finstack.Model.PaymentProviders.MajorUnits
import Finstack.Model.Submission.Payouts
import Finstack.Model.Submission.Refunds

/-! # The adapters' money-moving calls

`refundPayment` and `payouts.initiate` of the adapters that speak HTTP, each with the requests it
makes first, its check of the envelope and its reading of the result. The services' decision on what
an adapter throws is at the end.
-/

namespace Finstack.PaymentProviders

open Foundation

abbrev ProviderPaymentStatus := RefundSubmission.RefundStatus
abbrev ProviderPayoutStatus := PayoutSubmission.PayoutResultStatus

structure RefundPaymentInput where
  providerReference : String
  /-- Minor units. -/
  amount : Int
  currency : String
  reference : String

structure InitiatePayoutInput where
  reference : String
  /-- Minor units. -/
  amount : Int
  currency : String
  recipientReference : String
  narration : Option String

structure RefundPaymentResult where
  providerRefundReference : Value
  status : ProviderPaymentStatus

structure PayoutResult where
  providerReference : Value
  status : ProviderPayoutStatus
  failureReason : Value

/-- How an adapter reaches its provider. -/
structure ProviderConfig where
  baseUrl : String
  /-- The secret key; for PayPal the encoded client id and secret. -/
  secretKey : String
  timeoutMs : Nat

/-! ## Texts -/

def hexDigit (n : Nat) : Char := ("0123456789ABCDEF".toList)[n]?.getD '0'

def percentEncode (c : Char) : String :=
  String.join ((String.singleton c).toUTF8.toList.map fun byte =>
    String.ofList ['%', hexDigit (byte.toNat / 16), hexDigit (byte.toNat % 16)])

def encodeURIComponent (text : String) : String :=
  String.join (text.toList.map fun c =>
    if c.isAlphanum || "-_.!~*'()".toList.contains c then String.singleton c else percentEncode c)

/-- A value of `URLSearchParams`. -/
def formEncode (text : String) : String :=
  String.join (text.toList.map fun c =>
    if c = ' ' then "+"
    else if c.isAlphanum || "*-._".toList.contains c then String.singleton c
    else percentEncode c)

/-- A property that is only there when the text is not empty. -/
def narrationField (name : String) : Option String → List (String × Json)
  | some narration => if narration = "" then [] else [(name, .string narration)]
  | none => []

section

variable (parse : String → Option Json) (config : ProviderConfig)

/-! ## Paystack -/

namespace Paystack

/-- The envelope must say `status` and hold data. -/
def check (body : Json) : Except Thrown Json := do
  let status ← prop "status" (some body)
  let data ← prop "data" (some body)
  if !status.truthy || !data.truthy then
    let message ← textOf ((body.field "message").or (some (.string "request not successful")))
    throw (.provider ⟨"Paystack: " ++ message, false, none⟩)
  return body

def call (method : Method) (path : String) (body : Option Json) : Http Json := do
  let response ← request parse
    { method
      url := config.baseUrl ++ path
      headers := [("Authorization", "Bearer " ++ config.secretKey)]
      body
      form := none
      timeoutMs := config.timeoutMs }
  lift (check response.body)

def mapRefundStatus (status : Value) : ProviderPaymentStatus :=
  if status.isString "processed" then .successful
  else if status.isString "failed" then .failed
  else .pending

def mapTransferStatus (status : Value) : ProviderPayoutStatus :=
  if status.isString "success" then .successful
  else if status.isString "failed" || status.isString "abandoned" || status.isString "rejected" then
    .failed
  else if status.isString "reversed" then .reversed
  else .pending

def refundResult (body : Json) : Except Thrown RefundPaymentResult := do
  let data := body.field "data"
  let id ← textOf (← prop "id" data)
  return ⟨some (.string id), mapRefundStatus (← prop "status" data)⟩

def refundPayment (input : RefundPaymentInput) : Http RefundPaymentResult := do
  let body ← call parse config .POST "/refund" (some (.object
    [("transaction", .string input.providerReference),
      ("amount", .string (toString input.amount)),
      ("currency", .string input.currency),
      ("merchant_note", .string input.reference)]))
  lift (refundResult body)

def transferResult (body : Json) : Except Thrown PayoutResult := do
  let transfer := body.field "data"
  let status := mapTransferStatus (← prop "status" transfer)
  let transferCode ← prop "transfer_code" transfer
  let reason ← prop "reason" transfer
  return ⟨transferCode, status, if status = .failed && reason.truthy then reason else none⟩

def initiateTransfer (input : InitiatePayoutInput) : Http PayoutResult := do
  let body ← call parse config .POST "/transfer" (some (.object (
    [("source", .string "balance"),
      ("amount", .string (toString input.amount)),
      ("currency", .string input.currency),
      ("recipient", .string input.recipientReference),
      ("reference", .string input.reference)] ++ narrationField "reason" input.narration)))
  lift (transferResult body)

end Paystack

/-! ## Flutterwave -/

namespace Flutterwave

def check (body : Json) : Except Thrown Json := do
  let status ← prop "status" (some body)
  let data ← prop "data" (some body)
  if !status.isString "success" || !data.truthy then
    let message ← textOf ((body.field "message").or (some (.string "request not successful")))
    throw (.provider ⟨"Flutterwave: " ++ message, false, none⟩)
  return body

def call (method : Method) (path : String) (body : Option Json) : Http Json := do
  let response ← request parse
    { method
      url := config.baseUrl ++ path
      headers := [("Authorization", "Bearer " ++ config.secretKey)]
      body
      form := none
      timeoutMs := config.timeoutMs }
  lift (check response.body)

def mapTransferStatus (status : Value) : Except Thrown ProviderPayoutStatus := do
  let status ← stringOf status
  if status.toUpper = "SUCCESSFUL" then return .successful
  else if status.toUpper = "FAILED" then return .failed
  else return .pending

def mapRefundStatus (status : Value) : Except Thrown ProviderPaymentStatus := do
  let status ← stringOf status
  let value := status.toLower
  if value = "completed" || value.startsWith "completed-" then return .successful
  else if value = "failed" || value.startsWith "failed-" then return .failed
  else return .pending

def transactionByReference (txRef : String) : Http Value := do
  let body ← call parse config .GET
    ("/transactions/verify_by_reference?tx_ref=" ++ formEncode txRef) none
  return body.field "data"

def refundResult (body : Json) : Except Thrown RefundPaymentResult := do
  let data := body.field "data"
  let id ← textOf (← prop "id" data)
  return ⟨some (.string id), ← mapRefundStatus (← prop "status" data)⟩

def refundPayment (input : RefundPaymentInput) : Http RefundPaymentResult := do
  let transaction ← transactionByReference parse config input.providerReference
  let id ← lift (do textOf (← prop "id" transaction))
  let amount ← lift (toMajorUnitNumber input.amount input.currency)
  let body ← call parse config .POST ("/transactions/" ++ id ++ "/refund") (some (.object
    [("amount", .number (numberText amount)), ("comments", .string input.reference)]))
  lift (refundResult body)

def transferResult (body : Json) : Except Thrown PayoutResult := do
  let transfer := body.field "data"
  let status ← mapTransferStatus (← prop "status" transfer)
  let id ← textOf (← prop "id" transfer)
  let message ← prop "complete_message" transfer
  return ⟨some (.string id), status, if status = .failed && message.truthy then message else none⟩

def initiateTransfer (input : InitiatePayoutInput) : Http PayoutResult := do
  let amount ← lift (toMajorUnitNumber input.amount input.currency)
  let body ← call parse config .POST "/transfers" (some (.object (
    -- Flutterwave's recipients are numbered.
    [("beneficiary", .number input.recipientReference),
      ("amount", .number (numberText amount)),
      ("currency", .string input.currency),
      ("debit_currency", .string input.currency),
      ("reference", .string input.reference)] ++ narrationField "narration" input.narration)))
  lift (transferResult body)

end Flutterwave

/-! ## Stripe -/

namespace Stripe

def call (method : Method) (path : String) (form : Option (List (String × Value)))
    (idempotencyKey : Option String) : Http Json := do
  let response ← request parse
    { method
      url := config.baseUrl ++ path
      headers := ("Authorization", "Bearer " ++ config.secretKey) ::
        idempotencyKey.toList.map fun key => ("Idempotency-Key", key)
      body := none
      form
      timeoutMs := config.timeoutMs }
  return response.body

def getSession (sessionId : String) : Http Json :=
  call parse config .GET ("/v1/checkout/sessions/" ++ encodeURIComponent sessionId) none none

def mapRefundStatus (status : Value) : ProviderPaymentStatus :=
  if status.isString "succeeded" then .successful
  else if status.isString "failed" || status.isString "canceled" then .failed
  else .pending

def paymentIntent (session : Json) : Except Thrown Value := do
  let intent ← prop "payment_intent" (some session)
  if !intent.truthy then
    throw (.provider ⟨"Stripe session has no payment to refund", false, none⟩)
  return intent

def refundResult (refund : Json) : Except Thrown RefundPaymentResult := do
  let id ← prop "id" (some refund)
  return ⟨id, mapRefundStatus (← prop "status" (some refund))⟩

def refundPayment (input : RefundPaymentInput) : Http RefundPaymentResult := do
  let session ← getSession parse config input.providerReference
  let intent ← lift (paymentIntent session)
  let refund ← call parse config .POST "/v1/refunds"
    (some [("payment_intent", intent),
      ("amount", some (.string (toString input.amount))),
      ("metadata[finstack_reference]", some (.string input.reference))])
    (some ("finstack-refund-" ++ input.reference))
  lift (refundResult refund)

end Stripe

/-! ## PayPal -/

namespace PayPal

/-- The cached access token while it is `fresh` by the clock, or a new one. -/
def accessToken (token : Option Value) (fresh : Bool) : Http Value :=
  match token, fresh with
  | some value, true => return value
  | _, _ => do
    let response ← request parse
      { method := .POST
        url := config.baseUrl ++ "/v1/oauth2/token"
        headers := [("Authorization", "Basic " ++ config.secretKey)]
        body := none
        form := some [("grant_type", some (.string "client_credentials"))]
        timeoutMs := config.timeoutMs }
    let value ← lift (prop "access_token" (some response.body))
    -- The expiry is computed from it.
    let _ ← lift (textOf (response.body.field "expires_in"))
    return value

/-- The answer with the token that is cached afterwards. -/
def call (token : Option Value) (fresh : Bool) (method : Method) (path : String)
    (body : Option Json) (requestId : Option String) : Http (Value × Json) := do
  let access ← accessToken parse config token fresh
  let bearer ← lift (textOf access)
  let response ← request parse
    { method
      url := config.baseUrl ++ path
      headers := [("Authorization", "Bearer " ++ bearer), ("Prefer", "return=representation")] ++
        requestId.toList.map fun id => ("PayPal-Request-Id", id)
      body
      form := none
      timeoutMs := config.timeoutMs }
  return (access, response.body)

def mapPayoutStatus (status : Value) : ProviderPayoutStatus :=
  if status.isString "SUCCESS" then .successful
  else if ["FAILED", "DENIED", "BLOCKED", "CANCELED"].any status.isString then .failed
  else if ["RETURNED", "REFUNDED", "REVERSED"].any status.isString then .reversed
  else .pending

def mapRefundStatus (status : Value) : ProviderPaymentStatus :=
  if status.isString "COMPLETED" then .successful
  else if status.isString "FAILED" || status.isString "CANCELLED" then .failed
  else .pending

def money (amount : Int) (currency : String) : Except Thrown Json := do
  let value ← toMajorUnitString amount currency
  return .object [("currency_code", .string currency), ("value", .string value)]

/-- The id of the order's first capture. -/
def captureId (order : Json) : Except Thrown String := do
  let units ← prop "purchase_units" (some order)
  let capture := ((units.first?.field? "payments").field? "captures").first?
  if !capture.truthy then
    throw (.provider ⟨"PayPal order has no capture to refund", false, none⟩)
  textOf (← prop "id" capture)

def refundResult (refund : Json) : Except Thrown RefundPaymentResult := do
  let id ← prop "id" (some refund)
  return ⟨id, mapRefundStatus (← prop "status" (some refund))⟩

/-- The token is `fresh` or not when the order is asked for, and again when the refund is sent. -/
def refundPayment (token : Option Value) (fresh freshAgain : Bool) (input : RefundPaymentInput) :
    Http RefundPaymentResult := do
  let (access, order) ← call parse config token fresh .GET
    ("/v2/checkout/orders/" ++ encodeURIComponent input.providerReference) none none
  let id ← lift (captureId order)
  let amount ← lift (money input.amount input.currency)
  let (_, refund) ← call parse config (some access) freshAgain .POST
    ("/v2/payments/captures/" ++ encodeURIComponent id ++ "/refund")
    (some (.object [("amount", amount), ("custom_id", .string input.reference)]))
    (some ("finstack-refund-" ++ input.reference))
  lift (refundResult refund)

def payoutResult (batch : Json) : Except Thrown PayoutResult := do
  let items ← prop "items" (some batch)
  let item := items.first?
  let header ← prop "batch_header" (some batch)
  let batchStatus ← prop "batch_status" header
  let itemStatus := item.field? "transaction_status"
  let status := if batchStatus.isString "DENIED" then .failed else mapPayoutStatus itemStatus
  let reason := ((item.field? "errors").field? "message").orElse
    ((item.field? "errors").field? "name")
  let batchId ← prop "payout_batch_id" header
  if status = .failed then
    let text ← textOf (itemStatus.orElse batchStatus)
    return ⟨batchId, status, reason.orElse (some (.string ("PayPal payout " ++ text.toLower)))⟩
  return ⟨batchId, status, none⟩

def initiatePayout (token : Option Value) (fresh : Bool) (input : InitiatePayoutInput) :
    Http PayoutResult := do
  let value ← lift (toMajorUnitString input.amount input.currency)
  let (_, batch) ← call parse config token fresh .POST "/v1/payments/payouts"
    (some (.object
      [("sender_batch_header", .object (
          [("sender_batch_id", .string input.reference),
            ("email_subject", .string "You have a payment")] ++
          narrationField "email_message" input.narration)),
        ("items", .array [.object (
          [("recipient_type", .string "EMAIL"),
            ("receiver", .string input.recipientReference),
            ("amount", .object [("currency", .string input.currency), ("value", .string value)]),
            ("sender_item_id", .string input.reference)] ++
          narrationField "note" input.narration)])]))
    (some ("finstack-payout-" ++ input.reference))
  lift (payoutResult batch)

end PayPal

/-! ## Any of them -/

/-- A money-moving call through one of the adapters. -/
inductive MoneyCall where
  | paystackRefund (input : RefundPaymentInput)
  | paystackTransfer (input : InitiatePayoutInput)
  | flutterwaveRefund (input : RefundPaymentInput)
  | flutterwaveTransfer (input : InitiatePayoutInput)
  | stripeRefund (input : RefundPaymentInput)
  | paypalRefund (token : Option Value) (fresh freshAgain : Bool) (input : RefundPaymentInput)
  | paypalPayout (token : Option Value) (fresh : Bool) (input : InitiatePayoutInput)

/-- What a call returns, as a refund or as a payout. -/
abbrev MoneyResult := RefundPaymentResult ⊕ PayoutResult

def MoneyCall.run : MoneyCall → Http MoneyResult
  | .paystackRefund input => Sum.inl <$> Paystack.refundPayment parse config input
  | .paystackTransfer input => Sum.inr <$> Paystack.initiateTransfer parse config input
  | .flutterwaveRefund input => Sum.inl <$> Flutterwave.refundPayment parse config input
  | .flutterwaveTransfer input => Sum.inr <$> Flutterwave.initiateTransfer parse config input
  | .stripeRefund input => Sum.inl <$> Stripe.refundPayment parse config input
  | .paypalRefund token fresh freshAgain input =>
    Sum.inl <$> PayPal.refundPayment parse config token fresh freshAgain input
  | .paypalPayout token fresh input =>
    Sum.inr <$> PayPal.initiatePayout parse config token fresh input

end

/-! ## What the services do with a failed call -/

/-- `error instanceof PaymentProviderError && !error.retryable` -/
def isRejection : Thrown → Bool
  | .provider error => !error.retryable
  | _ => false

/-- A refund whose sending fails so releases its hold as PROVIDER_REJECTED. -/
def refundReleased (thrown : Thrown) : Bool := isRejection thrown

/-- A payout also needs that no earlier submission was seen. -/
def payoutReleased (thrown : Thrown) (submittedAt : Option Nat) : Bool :=
  isRejection thrown && submittedAt.isNone

def MoneyCall.releases (call : MoneyCall) (thrown : Thrown) (submittedAt : Option Nat) : Bool :=
  match call with
  | .paystackTransfer _ | .flutterwaveTransfer _ | .paypalPayout .. =>
    payoutReleased thrown submittedAt
  | _ => refundReleased thrown

end Finstack.PaymentProviders
