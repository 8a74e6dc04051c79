import Finstack.Soundness.Ledger.EveryRun
import Finstack.Soundness.Ledger.Duplicates
import Finstack.Soundness.Ledger.Agreement
import Finstack.Soundness.Ledger.Records
import Finstack.Model.Submission.Payouts
import Finstack.Soundness.Submission.Payouts
import Finstack.Model.Submission.Refunds
import Finstack.Soundness.Submission.Refunds
import Finstack.Model.Refunds.RefundMath
import Finstack.Model.Refunds.Course
import Finstack.Soundness.Refunds.Shares
import Finstack.Foundation.RowStore
import Finstack.Foundation.Schedule
import Finstack.Model.Admin.Users
import Finstack.Soundness.Admin.LastAdmin
import Finstack.Foundation.UniqueIndex
import Finstack.Model.Organizations.Members
import Finstack.Soundness.Organizations.Owner
import Finstack.Model.Auth.RefreshTokens
import Finstack.Soundness.Auth.Calls
import Finstack.Soundness.Auth.Chains
import Finstack.Soundness.Auth.Statements
import Finstack.Soundness.Auth.Exchange
import Finstack.Soundness.Auth.Revocation
import Finstack.Soundness.Auth.Sessions
import Finstack.Model.Idempotency.Keys
import Finstack.Soundness.Idempotency.Claims
import Finstack.Foundation.LockQueue
import Finstack.Model.Wallets.Movements
import Finstack.Model.Fx.Legs
import Finstack.Model.Ledger.Sequences
import Finstack.Soundness.Ledger.Deadlocks
import Finstack.Model.Proposals.Decisions
import Finstack.Soundness.Proposals.Payouts
import Finstack.Model.Fx.Conversions
import Finstack.Soundness.Fx.Calls
import Finstack.Soundness.Fx.Statements
import Finstack.Soundness.Fx.Conversions
import Finstack.Soundness.Fx.EveryRun
import Finstack.Model.Limits.Rules
import Finstack.Model.Limits.Requests
import Finstack.Foundation.RowTotal
import Finstack.Soundness.Limits.Calls
import Finstack.Soundness.Limits.Statements
import Finstack.Soundness.Limits.Requests
import Finstack.Soundness.Limits.Velocity
import Finstack.Soundness.Limits.Replays
import Finstack.Model.OutboundWebhooks.FanOut
import Finstack.Soundness.OutboundWebhooks.FanOut
import Finstack.Foundation.Exchange
import Finstack.Foundation.BinaryRounding
import Finstack.Model.Numbers
import Finstack.Model.PaymentProviders.MajorUnits
import Finstack.Model.PaymentProviders.Adapters
import Finstack.Soundness.PaymentProviders.Rejections
import Finstack.Soundness.PaymentProviders.MajorUnits
import Finstack.Foundation.KeyedFold
import Finstack.Model.Reconciliation.Payments
import Finstack.Soundness.Reconciliation.Payments
import Finstack.Model.Reconciliation.Payouts
import Finstack.Soundness.Reconciliation.Payouts
import Finstack.Model.Refunds.Requests
import Finstack.Soundness.Refunds.Holds
import Finstack.Foundation.RowHistory
import Finstack.Model.Outbox.Events
import Finstack.Model.Webhooks.Events
import Finstack.Soundness.Webhooks.Outbox
import Finstack.Model.Wallets.Openings
import Finstack.Soundness.Wallets.Tables
import Finstack.Soundness.Wallets.Primary
import Finstack.Soundness.Wallets.Creates
import Finstack.Model.Services.Rows
import Finstack.Model.Services.Transactions
import Finstack.Model.Services.Fx
import Finstack.Model.Services.Wallets
import Finstack.Model.Services.Payments
import Finstack.Model.Services.Payouts
import Finstack.Model.Services.Refunds
import Finstack.Model.Services.Transfers
import Finstack.Model.Services.Calls
import Finstack.Foundation.Facts
import Finstack.Foundation.Indifference
import Finstack.Soundness.Services.Rows
import Finstack.Foundation.Outcomes
import Finstack.Foundation.Rounding
import Finstack.Foundation.Decimals
import Finstack.Model.Fx.Math
import Finstack.Soundness.Fx.Math
import Finstack.Soundness.Fx.Rates
import Finstack.Model.Cli.Listener
import Finstack.Soundness.Cli.Listener
import Finstack.Model.Notifications.Emails
import Finstack.Soundness.Notifications.Emails
import Finstack.Model.Reconciliation.Paystack
import Finstack.Soundness.Reconciliation.Paystack
import Finstack.Model.Services.Checkout
import Finstack.Soundness.Services.Quiet
import Finstack.Soundness.Services.Recorded
import Finstack.Soundness.Services.Results
import Finstack.Soundness.Services.Spares
import Finstack.Soundness.Services.Movements
import Finstack.Soundness.Services.Holds
import Finstack.Soundness.Services.Heedless
import Finstack.Soundness.Services.Frozen
import Finstack.Model.OutboundWebhooks.Deliveries
import Finstack.Soundness.OutboundWebhooks.Deliveries
import Finstack.Model.OutboundWebhooks.Signature
import Finstack.Model.OutboundWebhooks.Secrets
import Finstack.Soundness.OutboundWebhooks.Signature
import Finstack.Soundness.OutboundWebhooks.Secrets
import Finstack.Model.Webhooks.Matching
import Finstack.Soundness.Webhooks.Matching
import Finstack.Soundness.Numbers
import Finstack.Foundation.Base64
import Finstack.Foundation.Keyset
import Finstack.Model.Pagination.Dates
import Finstack.Model.Pagination.Cursor
import Finstack.Model.Pagination.Lists
import Finstack.Soundness.Pagination.Dates
import Finstack.Soundness.Pagination.Cursor
import Finstack.Soundness.Pagination.Lists
import Finstack.Soundness.Pagination.Users
import Finstack.Foundation.Legible
import Finstack.Model.Idempotency.Fingerprint
import Finstack.Soundness.Idempotency.Fingerprint
import Finstack.Soundness.Books.EveryRun
