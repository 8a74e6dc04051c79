import Finstack.Model.Ledger.Types

/-! # Rows of the service tables

Wallets, business transactions, payments, refunds, payouts, FX quotes, fee and limit rules, and the
events of the outbox, with the columns the services read and write. Times are milliseconds.
-/

namespace Finstack

open Foundation

/-- Who money belongs to: exactly one of the two owner columns is set. -/
inductive Owner where
  | user (id : Uuid)
  | organization (id : Uuid)
deriving DecidableEq, Repr

/-- The user id when the owner is a user. -/
def ownerUserId : Owner → Option Uuid
  | .user id => some id
  | .organization _ => none

def ownerOrganizationId : Owner → Option Uuid
  | .user _ => none
  | .organization id => some id

/-! ## Wallets -/

inductive WalletStatus where
  | active
  | frozen
  | closed
deriving DecidableEq, Repr

/-- The wallet holds no amounts itself: each balance is a ledger account. -/
structure Wallet where
  id : Uuid
  owner : Owner
  currency : String
  status : WalletStatus
  isPrimary : Bool
  availableAccountId : Uuid
  pendingAccountId : Uuid
  reservedAccountId : Uuid
deriving DecidableEq, Repr

instance : Keyed Wallet Uuid := ⟨Wallet.id⟩

/-! ## Transactions -/

inductive TransactionType where
  | transfer
  | deposit
  | withdrawal
  | payment
  | refund
  | fee
  | reversal
  | conversion
deriving DecidableEq, Repr

inductive TransactionStatus where
  | pending
  | processing
  | successful
  | failed
  | reversed
  | cancelled
  | expired
deriving DecidableEq, Repr

namespace TransactionStatus

def text : TransactionStatus → String
  | .pending => "pending"
  | .processing => "processing"
  | .successful => "successful"
  | .failed => "failed"
  | .reversed => "reversed"
  | .cancelled => "cancelled"
  | .expired => "expired"

end TransactionStatus

/-- Every allowed status change; the database trigger has the same list. -/
def TRANSACTION_TRANSITIONS : TransactionStatus → List TransactionStatus
  | .pending => [.processing, .successful, .failed, .cancelled, .expired]
  | .processing => [.successful, .failed]
  | .successful => [.reversed]
  | .failed | .reversed | .cancelled | .expired => []

def canTransition (current next : TransactionStatus) : Bool :=
  (TRANSACTION_TRANSITIONS current).contains next

def isTerminal (status : TransactionStatus) : Bool :=
  (TRANSACTION_TRANSITIONS status).isEmpty

/-- The business view of a money movement, linking who and why to the ledger transaction. -/
structure Transaction where
  id : Uuid
  reference : String
  type : TransactionType
  status : TransactionStatus
  owner : Owner
  counterpartyUserId : Option Uuid := none
  sourceWalletId : Option Uuid := none
  destinationWalletId : Option Uuid := none
  amount : Int
  currency : String
  feeAmount : Int := 0
  feeCurrency : Option String := none
  ledgerTransactionId : Option Uuid := none
  providerReference : Option String := none
  idempotencyKey : Option String := none
  failureCode : Option String := none
  failureReason : Option String := none
  createdAt : Nat
  completedAt : Option Nat := none
deriving DecidableEq, Repr

instance : Keyed Transaction Uuid := ⟨Transaction.id⟩

/-! ## Payments, refunds and payouts -/

/-- Provider-side details of an incoming payment; its status lives on the transaction. -/
structure Payment where
  id : Uuid
  transactionId : Uuid
  owner : Owner
  walletId : Uuid
  provider : String
  providerReference : Option String := none
  /-- Charged to the customer, in minor units of `currency`. -/
  amount : Int
  currency : String
  fxQuoteId : Option Uuid
  /-- How much of the credit is still in the wallet's pending balance. -/
  pendingAmount : Int := 0
  /-- When the credited money is or becomes available; none until credited. -/
  fundsAvailableAt : Option Nat := none
  createdAt : Nat := 0
deriving DecidableEq, Repr

instance : Keyed Payment Uuid := ⟨Payment.id⟩

/-- A full or partial refund of a payment; its status lives on the transaction. -/
structure Refund where
  id : Uuid
  reference : String
  paymentId : Uuid
  transactionId : Uuid
  amount : Int
  currency : String
  walletId : Uuid
  /-- Taken from the wallet, held at request time. -/
  walletDebitAmount : Int
  walletCurrency : String
  /-- Part of `walletDebitAmount` held from the pending balance. -/
  pendingHoldAmount : Int
  revenueReversal : Int
  grossReversal : Int
  provider : String
  providerRefundReference : Option String := none
  submittedAt : Option Nat := none
  reason : String
  requestedByUserId : Uuid
  idempotencyKey : String
  createdAt : Nat
deriving DecidableEq, Repr

instance : Keyed Refund Uuid := ⟨Refund.id⟩

/-- Provider-side details of money sent out; its status lives on the transaction. -/
structure Payout where
  id : Uuid
  reference : String
  transactionId : Uuid
  owner : Owner
  walletId : Uuid
  destinationId : Uuid
  provider : String
  amount : Int
  currency : String
  providerReference : Option String := none
  submittedAt : Option Nat := none
  createdAt : Nat
deriving DecidableEq, Repr

instance : Keyed Payout Uuid := ⟨Payout.id⟩

/-- Where payouts go; new ones wait until `payoutsAvailableAt`. -/
structure PayoutDestination where
  id : Uuid
  owner : Owner
  provider : String
  currency : String
  payoutsAvailableAt : Nat
  removedAt : Option Nat := none
deriving DecidableEq, Repr

instance : Keyed PayoutDestination Uuid := ⟨PayoutDestination.id⟩

/-! ## FX quotes -/

/-- A locked conversion offer, consumed at most once by one conversion reference. -/
structure FxQuote where
  id : Uuid
  userId : Option Uuid
  sourceCurrency : String
  targetCurrency : String
  sourceAmount : Int
  /-- Credited amount, after the spread. -/
  targetAmount : Int
  /-- Source amount valued at the mid rate. -/
  grossTargetAmount : Int
  expiresAt : Nat
  consumedAt : Option Nat := none
  conversionReference : Option String := none
  sourceTransactionId : Option Uuid := none
  targetTransactionId : Option Uuid := none
deriving DecidableEq, Repr

instance : Keyed FxQuote Uuid := ⟨FxQuote.id⟩

/-! ## Fee and limit rules -/

inductive FeeOperation where
  | payment
  | payout
  | transfer
deriving DecidableEq, Repr

/-- How much an operation costs in a currency; null organization is the platform default. -/
structure FeeRule where
  id : Uuid
  operation : FeeOperation
  currency : String
  organizationId : Option Uuid
  fixedAmount : Int
  percentageBps : Int
  minAmount : Int
  maxAmount : Option Int
  supersededAt : Option Nat := none
deriving DecidableEq, Repr

inductive LimitOperation where
  | payment
  | payout
  | transfer
deriving DecidableEq, Repr

/-- How much an owner may move per operation and currency. -/
structure LimitRule where
  id : Uuid
  operation : LimitOperation
  currency : String
  organizationId : Option Uuid
  maxPerTransaction : Option Int
  maxDailyAmount : Option Int
  maxDailyCount : Option Int
  maxMonthlyAmount : Option Int
  supersededAt : Option Nat := none
deriving DecidableEq, Repr

structure User where
  id : Uuid
  email : String
deriving DecidableEq, Repr

/-! ## Outbox events -/

/-- Minor units in a currency. -/
structure Money where
  amount : Int
  currency : String
deriving DecidableEq, Repr

/-- What the payment events say. -/
structure PaymentEvent where
  transactionId : Uuid
  reference : String
  paymentId : Uuid
  owner : Owner
deriving DecidableEq, Repr

/-- What the refund events say. -/
structure RefundEvent where
  refundId : Uuid
  reference : String
  paymentId : Uuid
  owner : Owner
deriving DecidableEq, Repr

/-- What the payout events say. -/
structure PayoutEvent where
  payoutId : Uuid
  reference : String
  transactionId : Uuid
  owner : Owner
  walletId : Uuid
  amount : Int
  currency : String
deriving DecidableEq, Repr

inductive EventPayload where
  | paymentSuccessful (event : PaymentEvent) (walletId : Uuid) (charged credited fee : Money)
      (fundsAvailableAt : Nat)
  | paymentFailed (event : PaymentEvent) (failureCode : String)
  | fundsAvailable (paymentId walletId : Uuid) (owner : Owner) (amount : Int) (early : Bool)
  | refundSuccessful (event : RefundEvent) (refunded walletDebit : Money)
  | refundFailed (event : RefundEvent) (failureCode : String)
  | payoutSuccessful (event : PayoutEvent)
  | payoutFailed (event : PayoutEvent) (failureCode : String)
  | payoutReversed (event : PayoutEvent)
  | transferCompleted (transactionId : Uuid) (reference : String)
      (senderUserId recipientUserId : Uuid) (amount : Int) (currency : String) (fee : Int)
deriving DecidableEq, Repr

/-- An event recorded in the transaction of the change it describes; all are about a
`transaction` aggregate. -/
structure OutboxEvent where
  aggregateId : Uuid
  payload : EventPayload
deriving DecidableEq, Repr

namespace EventPayload

/-- The event's type, as consumers see it. -/
def type : EventPayload → String
  | .paymentSuccessful .. => "payment.successful"
  | .paymentFailed .. => "payment.failed"
  | .fundsAvailable .. => "payment.funds_available"
  | .refundSuccessful .. => "refund.successful"
  | .refundFailed .. => "refund.failed"
  | .payoutSuccessful .. => "payout.successful"
  | .payoutFailed .. => "payout.failed"
  | .payoutReversed .. => "payout.reversed"
  | .transferCompleted .. => "transfer.completed"

end EventPayload

end Finstack
