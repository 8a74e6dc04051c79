import Finstack.Model.Services.Payouts
import Finstack.Model.Services.Refunds
import Finstack.Model.Services.Transfers

/-! # Calls of the services

Everything that moves a wallet's money, and what opens wallets and changes their status. Each client
makes one call; there are any number of clients.
-/

namespace Finstack.Services

open Foundation

/-- What gives a hold back: a payout or a refund has failed, or a settlement hold ends. -/
inductive Release where
  | failPayout (id : Uuid) (payout : Payout) (failureCode failureReason : String)
  | failRefund (id refundId : Uuid) (failureCode failureReason : String)
  | endSettlementHold (id paymentId : Uuid) (early : Bool)

inductive ServiceCall where
  | openWallet (fresh : Fresh) (owner : Owner) (currency : String) (primary : Option Bool)
  | setWalletStatus (walletId : Uuid) (change : AdminService.WalletStatusChange)
  | deposit (fresh : Fresh) (walletId : Uuid) (movement : MoneyMovement)
  | withdraw (fresh : Fresh) (walletId : Uuid) (movement : MoneyMovement)
  | transferWallets (fresh : Fresh) (fromWalletId toWalletId : Uuid) (movement : MoneyMovement)
  | reserve (fresh : Fresh) (walletId : Uuid) (movement : MoneyMovement)
  | releaseReserved (fresh : Fresh) (walletId : Uuid) (movement : MoneyMovement)
  | depositWithConversion (fresh : Fresh) (walletId : Uuid) (input : WalletsService.ConversionDeposit)
  | convertBetweenWallets (fresh : Fresh) (owner : Owner) (fromWalletId toWalletId : Uuid)
      (input : WalletsService.ConversionDeposit)
  | transfer (generated : TransfersService.Generated) (userId : Uuid)
      (input : TransfersService.TransferInput) (idempotencyKey : String)
  | creditPayment (fresh : Fresh) (setting : PaymentSettlementService.Setting) (payment : Payment)
  | failPayment (payment : Payment) (failureCode failureReason : String)
  | requestPayout (generated : PayoutsService.Generated) (owner : Owner)
      (input : PayoutsService.RequestPayoutInput) (idempotencyKey : String)
  | completePayout (fresh : Fresh) (payout : Payout)
  | reversePayout (fresh : Fresh) (payout : Payout)
  | requestRefund (generated : RefundsService.Generated) (adminId paymentId : Uuid)
      (input : RefundsService.RefundInput) (idempotencyKey : String)
  | completeRefund (fresh : Fresh) (refundId : Uuid)
  | release (hold : Release)

/-- The answer is left out. -/
def unanswered {α : Type} (call : DbTxn α) : DbTxn Unit := do
  let _ ← call
  pure ()

def Release.run : Release → DbTxn Unit
  | .failPayout id payout failureCode failureReason =>
      PayoutsService.fail id payout failureCode failureReason
  | .failRefund id refundId failureCode failureReason =>
      RefundsService.fail id refundId failureCode failureReason
  | .endSettlementHold id paymentId early =>
      unanswered (SettlementReleaseService.release id paymentId early)

def ServiceCall.run : ServiceCall → DbTxn Unit
  | .openWallet fresh owner currency primary =>
      unanswered (WalletsService.insertWallet fresh owner currency primary)
  | .setWalletStatus walletId change => AdminService.setWalletStatus walletId change
  | .deposit fresh walletId movement => unanswered (WalletsService.deposit fresh walletId movement)
  | .withdraw fresh walletId movement => unanswered (WalletsService.withdraw fresh walletId movement)
  | .transferWallets fresh fromWalletId toWalletId movement =>
      unanswered (WalletsService.transfer fresh fromWalletId toWalletId movement)
  | .reserve fresh walletId movement => unanswered (WalletsService.reserve fresh walletId movement)
  | .releaseReserved fresh walletId movement =>
      unanswered (WalletsService.release fresh walletId movement)
  | .depositWithConversion fresh walletId input =>
      unanswered (WalletsService.depositWithConversion fresh walletId input)
  | .convertBetweenWallets fresh owner fromWalletId toWalletId input =>
      unanswered (WalletsService.convertBetweenWallets fresh owner fromWalletId toWalletId input)
  | .transfer generated userId input idempotencyKey =>
      unanswered (TransfersService.transfer generated userId input idempotencyKey)
  | .creditPayment fresh setting payment =>
      unanswered (PaymentSettlementService.credit fresh setting payment)
  | .failPayment payment failureCode failureReason =>
      unanswered (PaymentSettlementService.fail payment failureCode failureReason)
  | .requestPayout generated owner input idempotencyKey =>
      unanswered (PayoutsService.request generated owner input idempotencyKey)
  | .completePayout fresh payout => PayoutsService.complete fresh payout
  | .reversePayout fresh payout => PayoutsService.reverse fresh payout
  | .requestRefund generated adminId paymentId input idempotencyKey =>
      unanswered (RefundsService.request generated adminId paymentId input idempotencyKey)
  | .completeRefund fresh refundId => RefundsService.complete fresh refundId
  | .release hold => hold.run

end Finstack.Services
