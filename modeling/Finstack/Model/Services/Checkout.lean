import Finstack.Model.PaymentProviders.Adapters
import Finstack.Model.Services.Payments
import Finstack.Model.Services.Payouts

/-! # Checkouts

How a payment is created: the wallet it will credit, the provider it goes to, the fee and the quote
that are locked, and the rows, committed before the provider is called. What the provider answers
is an argument. The customer's email and the address of the hosted checkout are only passed on, so
the rows go without them.
-/

namespace Finstack

open Foundation

namespace Db

/-- The CHECK and the unique indexes of a new payment, whose provider reference is null. -/
def checkNewPayment (row : Payment) (db : Db) : Except DatabaseError Unit := do
  checkPayment row
  if (db.payments.find? row.id).isSome then throw (.uniqueViolation "pk_payments")
  if (db.findPaymentByTransaction row.transactionId).isSome then
    throw (.uniqueViolation "uq_payments_transaction_id")

/-- An update that sets the provider reference. -/
def checkProviderReference (id : Uuid) (reference : String) (db : Db) : Except DatabaseError Unit :=
  match db.payments.find? id with
  | some row =>
    if db.payments.rows.any fun other =>
        other.id ≠ id && other.provider = row.provider && other.providerReference = some reference then
      .error (.uniqueViolation "uq_payments_provider_reference")
    else .ok ()
  | none => .ok ()

def paymentLocks (row : Payment) : List RowLock :=
  [.payment row.id, .paymentTransaction row.transactionId]

end Db

namespace Services

/-! ## Providers -/

namespace PaymentProvidersService

structure PaymentProvider where
  name : String
  supportedCurrencies : List String
deriving DecidableEq, Repr

/-- The enabled providers and how payments are routed to them. -/
structure Routing where
  providers : List PaymentProvider
  currencyRoutes : List (String × String)
  preferred : List (String × String)
  defaultName : String

def providerNotAllowedForCurrencyException (currency required : String) : Err :=
  .app ⟨"PROVIDER_NOT_ALLOWED_FOR_CURRENCY", s!"{currency} payments must use {required}",
    HttpStatus.unprocessableEntity⟩

def currencyNotSupportedByProviderException (provider currency : String) : Err :=
  .app ⟨"CURRENCY_NOT_SUPPORTED_BY_PROVIDER", s!"{provider} cannot charge in {currency}",
    HttpStatus.unprocessableEntity⟩

def unknownPaymentProviderException (name : String) : Err :=
  .app ⟨"UNKNOWN_PAYMENT_PROVIDER", "Payment provider \"" ++ name ++ "\" is not enabled",
    HttpStatus.unprocessableEntity⟩

def get (routing : Routing) (name : String) : Except Err PaymentProvider :=
  match routing.providers.find? (·.name = name) with
  | some provider => .ok provider
  | none => .error (unknownPaymentProviderException name)

/-- The operator's route is a rule; then the request, the suggestion and the default. -/
def select (routing : Routing) (currency : String) (requested : Option String) :
    Except Err PaymentProvider :=
  match (routing.currencyRoutes.lookup currency).filter (· ≠ "") with
  | some routed =>
    if requested.any fun name => name ≠ "" ∧ name ≠ routed then
      .error (providerNotAllowedForCurrencyException currency routed)
    else get routing routed
  | none => do
    let provider ← get routing
      ((requested.or (routing.preferred.lookup currency)).getD routing.defaultName)
    if provider.supportedCurrencies.contains currency then .ok provider
    else .error (currencyNotSupportedByProviderException provider.name currency)

end PaymentProvidersService

namespace FeesService

def amountBelowFeeException (fee : String) : Err :=
  .app ⟨"AMOUNT_TOO_SMALL", s!"The amount does not cover the fee of {fee}",
    HttpStatus.unprocessableEntity⟩

/-- `quote`, refusing amounts the fee would consume entirely. -/
def quoteCovered (operation : FeeOperation) (currency : String) (amount : Int)
    (organizationId : Option Uuid) : DbTxn FeeQuote := do
  let fee ← quote operation currency amount organizationId
  if fee.amount ≥ amount ∧ fee.amount > 0 then
    Txn.throw (amountBelowFeeException (formatMoney fee.amount fee.currency))
  else pure fee

end FeesService

namespace WalletsService

structure CreditTarget where
  wallet : Wallet
  requiresConversion : Bool

/-- The wallet in the currency of the payment, or else the primary one. -/
def creditTarget (wallets : List Wallet) (currency : String) : Option CreditTarget :=
  match wallets.find? (·.currency = currency) with
  | some exact => some ⟨exact, false⟩
  | none => (wallets.find? (·.isPrimary)).map fun primary => ⟨primary, true⟩

def resolveCreditTarget (owner : Owner) (currency : String) : DbTxn CreditTarget := do
  let wallets ← Txn.queryCommitted fun db => db.wallets.rows.filter (·.owner = owner)
  orThrow walletNotFoundException (creditTarget wallets currency)

end WalletsService

/-! ## Payments -/

namespace PaymentsService

open PaymentProviders (Thrown isRejection)

def customerEmailRequiredException : Err :=
  .app ⟨"CUSTOMER_EMAIL_REQUIRED", "customerEmail is required for organization payments",
    HttpStatus.unprocessableEntity⟩

def paymentProviderUnavailableException : Err :=
  .app ⟨"PAYMENT_PROVIDER_UNAVAILABLE",
    "The payment provider is temporarily unavailable. Retry with the same Idempotency-Key.",
    HttpStatus.serviceUnavailable⟩

structure InitializePaymentInput where
  /-- Minor units of `currency`. -/
  amount : Int
  currency : String
  provider : Option String := none
  customerEmail : Option String := none

/-- A payment with its status and its quote, if it converts. -/
structure PaymentView where
  payment : Payment
  transaction : Transaction
  quote : Option FxQuote

/-- What is generated for a payment. -/
structure Generated where
  fresh : Fresh
  random : Nat

/-- What the services outside the database are set to, and answer. -/
structure Outside where
  routing : PaymentProvidersService.Routing
  /-- The offer of a quote between two currencies. -/
  offer : String → String → Int → Except Err FxService.Offer
  /-- The reference the provider gives a checkout. -/
  initializePayment : Payment → Transaction → Except Thrown String

/-- The transaction is read first and the payment again after it. -/
def view (payment : Payment) : DbTxn PaymentView := do
  let transaction ← TransactionsService.getById .dataSource payment.transactionId
  let found ← Txn.queryCommitted fun db => db.payments.find? payment.id
  let current ← orFail "Payment" found
  let quote ← match current.fxQuoteId with
    | some fxQuoteId => do
      let quote ← FxService.getQuote fxQuoteId
      pure (some quote)
    | none => pure none
  pure ⟨current, transaction, quote⟩

def customerEmailFor (owner : Owner) (input : InitializePaymentInput) : DbTxn String :=
  match input.customerEmail.filter (· ≠ "") with
  | some email => pure email
  | none =>
    match owner with
    | .organization _ => Txn.throw customerEmailRequiredException
    | .user id => do
      let found ← Txn.queryCommitted fun db => db.users.find? (·.id = id)
      let user ← orThrow paymentNotFoundException found
      pure user.email

def findByTransaction (transactionId : Uuid) : DbTxn Payment := do
  let found ← Txn.queryCommitted fun db => db.findPaymentByTransaction transactionId
  orThrow paymentNotFoundException found

/-- `payments.update(id, { providerReference, … })`, on a connection of its own. -/
def setProviderReference (id : Uuid) (reference : String) : DbTxn Unit :=
  Txn.separately [.payment id] fun db =>
    databaseCheck (db.checkProviderReference id reference)
      (Db.onPayments (·.modify id fun row => { row with providerReference := some reference }))

def messageOf : Thrown → String
  | .provider error => error.message
  | .typeError => "TypeError"
  | .rangeError message => message

/-- A definite rejection: the payment can never complete. -/
def reject (payment : Payment) (message : String) : DbTxn Unit := inTransaction do
  let _ ← TransactionsService.transition payment.transactionId .failed {
    failureCode := some "PROVIDER_REJECTED"
    failureReason := some (String.ofList (PaymentProviders.slice 500 message.toList)) }
  pure ()

/-- The `catch` of a call that failed: an outage leaves the payment pending. -/
def onProviderError (payment : Payment) (thrown : Thrown) : DbTxn Unit :=
  if isRejection thrown then reject payment (messageOf thrown)
  else Txn.throw paymentProviderUnavailableException

/-- Calls the provider unless this payment already has a checkout. -/
def ensureInitialized (outside : Outside) (payment : Payment) : DbTxn PaymentView := do
  let before ← view payment
  if payment.providerReference.any (· ≠ "") ∨ before.transaction.status ≠ .pending then pure before
  else
    match outside.initializePayment payment before.transaction with
    | .ok reference =>
      Txn.tryCatch (setProviderReference payment.id reference)
        fun _ => Txn.throw paymentProviderUnavailableException
    | .error thrown => onProviderError payment thrown
    let found ← Txn.queryCommitted fun db => db.payments.find? payment.id
    let again ← orFail "Payment" found
    view again

def newTransaction (owner : Owner) (wallet : Wallet) (input : InitializePaymentInput)
    (fee : FeeQuote) (idempotencyKey : String) : TransactionsService.NewTransaction :=
  FeesService.recorded fee {
    type := .payment
    status := .pending
    owner := owner
    destinationWalletId := some wallet.id
    amount := input.amount
    currency := input.currency
    idempotencyKey := some idempotencyKey }

def newPayment (id transactionId : Uuid) (owner : Owner) (wallet : Wallet) (providerName : String)
    (input : InitializePaymentInput) (quote : Option FxQuote) (createdAt : Nat) : Payment where
  id := id
  transactionId := transactionId
  owner := owner
  walletId := wallet.id
  provider := providerName
  amount := input.amount
  currency := input.currency
  fxQuoteId := quote.map (·.id)
  createdAt := createdAt

/-- The transaction and the payment. -/
def createPending (generated : Generated) (owner : Owner) (wallet : Wallet) (providerName : String)
    (input : InitializePaymentInput) (quote : Option FxQuote) (fee : FeeQuote)
    (idempotencyKey : String) : DbTxn Payment := do
  LimitsService.assertWithinLimitsWithin ⟨owner, .payment, input.currency, input.amount⟩
  let transaction ← TransactionsService.create (generated.fresh 0) generated.random
    (newTransaction owner wallet input fee idempotencyKey)
  let now ← Txn.query (·.clock)
  let payment := newPayment (generated.fresh 1) transaction.id owner wallet providerName input quote now
  save (Db.paymentLocks payment) (Db.checkNewPayment payment) (Db.onPayments (·.insert payment))
  pure payment

/-- A foreign currency gets a locked quote. -/
def quoteFor (generated : Generated) (outside : Outside) (owner : Owner)
    (target : WalletsService.CreditTarget) (input : InitializePaymentInput) : DbTxn (Option FxQuote) :=
  if target.requiresConversion then do
    let quote ← FxService.createQuote (generated.fresh 2) (ownerUserId owner) input.currency
      target.wallet.currency input.amount
      (outside.offer input.currency target.wallet.currency input.amount)
    pure (some quote)
  else pure none

/-- A concurrent request with the same key committed first: its payment is the answer. -/
def recover (owner : Owner) (idempotencyKey : String) (error : Err) : DbTxn PaymentView := do
  if isUniqueViolation error PayoutsService.KEY_CONSTRAINTS then
    match ← TransactionsService.findByIdempotencyKey owner idempotencyKey with
    | some winner => do
      let payment ← findByTransaction winner.id
      view payment
    | none => Txn.throw error
  else Txn.throw error

def initializeNew (generated : Generated) (outside : Outside) (owner : Owner)
    (input : InitializePaymentInput) (idempotencyKey : String) : DbTxn PaymentView := do
  let provider ← Prog.ret (PaymentProvidersService.select outside.routing input.currency input.provider)
  let _ ← customerEmailFor owner input
  let target ← WalletsService.resolveCreditTarget owner input.currency
  let quote ← quoteFor generated outside owner target input
  let fee ← FeesService.quoteCovered .payment target.wallet.currency
    ((quote.map (·.targetAmount)).getD input.amount) (ownerOrganizationId owner)
  let outcome ← Txn.tryCatch (do
    let payment ← inTransaction
      (createPending generated owner target.wallet provider.name input quote fee idempotencyKey)
    pure (Sum.inl payment)) fun error => do
      let winner ← recover owner idempotencyKey error
      pure (Sum.inr winner)
  match outcome with
  | .inl payment => ensureInitialized outside payment
  | .inr winner => pure winner

/-- `initialize`: idempotent by key, per owner; a retry returns the same payment. -/
def initializePayment (generated : Generated) (outside : Outside) (owner : Owner)
    (input : InitializePaymentInput) (idempotencyKey : String) : DbTxn PaymentView := do
  match ← TransactionsService.findByIdempotencyKey owner idempotencyKey with
  | some existing => do
    let payment ← findByTransaction existing.id
    ensureInitialized outside payment
  | none => initializeNew generated outside owner input idempotencyKey

end PaymentsService

end Services

end Finstack
