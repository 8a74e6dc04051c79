import Finstack.Model.Services.Calls
import Finstack.Model.Services.Submission

/-! # What the platform does with money

The requests of customers and of staff, the webhooks of the providers and the sweeps of the workers that
move money or open what it moves through. Each client makes one call; there are any number of clients.
-/

namespace Finstack.Services

open Foundation

inductive PlatformCall where
  | openWallet (fresh : Fresh) (owner : Owner) (currency : String) (primary : Option Bool)
  | setWalletStatus (walletId : Uuid) (change : AdminService.WalletStatusChange)
  | transfer (generated : TransfersService.Generated) (userId : Uuid)
      (input : TransfersService.TransferInput) (idempotencyKey : String)
  | initializePayment (generated : PaymentsService.Generated) (outside : PaymentsService.Outside)
      (owner : Owner) (input : PaymentsService.InitializePaymentInput) (idempotencyKey : String)
  | verifyPayment (fresh : Fresh) (setting : PaymentSettlementService.Setting) (providers : Providers)
      (owner : Owner) (paymentId : Uuid)
  | paymentWebhook (fresh : Fresh) (setting : PaymentSettlementService.Setting) (providers : Providers)
      (provider providerReference : String)
  | releaseDue (fresh : Fresh) (limit : Nat)
  | releaseEarly (id paymentId : Uuid)
  | requestPayout (generated : PayoutsService.Generated) (providers : Providers) (owner : Owner)
      (input : PayoutsService.RequestPayoutInput) (idempotencyKey : String)
  | syncPayout (fresh : Fresh) (providers : Providers) (payoutId : Uuid)
  | payoutWebhook (fresh : Fresh) (providers : Providers) (provider reference : String)
  | syncStalePayouts (fresh : Nat → Fresh) (providers : Providers) (olderThanMs limit : Nat)
  | requestRefund (generated : RefundsService.Generated) (providers : Providers)
      (adminId paymentId : Uuid) (input : RefundsService.RefundInput) (idempotencyKey : String)
  | retryRefund (fresh : Fresh) (providers : Providers) (refundId : Uuid)
  | refundWebhook (fresh : Nat → Fresh) (providers : Providers) (provider reference : String)
  | syncStaleRefunds (fresh : Nat → Fresh) (providers : Providers) (olderThanMs limit : Nat)

def PlatformCall.run : PlatformCall → DbTxn Unit
  | .openWallet fresh owner currency primary =>
      unanswered (WalletsService.insertWallet fresh owner currency primary)
  | .setWalletStatus walletId change => AdminService.setWalletStatus walletId change
  | .transfer generated userId input idempotencyKey =>
      unanswered (TransfersService.transfer generated userId input idempotencyKey)
  | .initializePayment generated outside owner input idempotencyKey =>
      unanswered (PaymentsService.initializePayment generated outside owner input idempotencyKey)
  | .verifyPayment fresh setting providers owner paymentId =>
      unanswered (PaymentSettlementService.verify fresh setting providers owner paymentId)
  | .paymentWebhook fresh setting providers provider providerReference =>
      unanswered (PaymentSettlementService.settleFromWebhook fresh setting providers provider
        providerReference)
  | .releaseDue fresh limit => SettlementReleaseService.releaseDue fresh limit
  | .releaseEarly id paymentId => unanswered (SettlementReleaseService.releaseEarly id paymentId)
  | .requestPayout generated providers owner input idempotencyKey =>
      unanswered (PayoutsService.requestSubmitted generated providers owner input idempotencyKey)
  | .syncPayout fresh providers payoutId => unanswered (PayoutsService.sync fresh providers payoutId)
  | .payoutWebhook fresh providers provider reference =>
      unanswered (PayoutsService.syncFromWebhook fresh providers provider reference)
  | .syncStalePayouts fresh providers olderThanMs limit =>
      PayoutsService.syncStale fresh providers olderThanMs limit
  | .requestRefund generated providers adminId paymentId input idempotencyKey =>
      unanswered (RefundsService.requestSubmitted generated providers adminId paymentId input
        idempotencyKey)
  | .retryRefund fresh providers refundId =>
      unanswered (RefundsService.retry fresh providers refundId)
  | .refundWebhook fresh providers provider reference =>
      unanswered (RefundsService.syncFromWebhook fresh providers provider reference)
  | .syncStaleRefunds fresh providers olderThanMs limit =>
      RefundsService.syncStale fresh providers olderThanMs limit

end Finstack.Services
