import Finstack.Model.Fx.Legs
import Finstack.Model.Ledger.Service
import Finstack.Model.Wallets.Movements

/-! # What the services post in one transaction

Each operation as the postings that it makes one after another in its database transaction, and the
accounts that these lock. -/

namespace Finstack

/-- The ids of the platform's own accounts in each currency. -/
structure PlatformAccounts where
  externalClearing : String → Uuid
  fxPosition : String → Uuid
  feeRevenue : String → Uuid
  fxRevenue : String → Uuid

namespace PlatformAccounts

/-- `systemAccounts`. -/
def conversion (accounts : PlatformAccounts) (source target : String) :
    FxService.ConversionAccounts where
  sourcePosition := accounts.fxPosition source
  targetPosition := accounts.fxPosition target
  targetRevenue := accounts.fxRevenue target

end PlatformAccounts

variable (accounts : PlatformAccounts)

/-- Wallet to wallet, and the fee on top. -/
def TransfersService.transfer (source destination : Wallet) (transaction : Transaction)
    (description : Option String) : List PostingInput :=
  WalletsService.transferWithin source destination
      ⟨transaction.amount, s!"transfer:{transaction.reference}", description.getD "Transfer"⟩ ::
    if transaction.feeAmount > 0 then
      [WalletsService.collectFeeWithin source (accounts.feeRevenue source.currency) .available
        ⟨transaction.feeAmount, s!"fee:transfer:{transaction.reference}",
          s!"Fee for transfer {transaction.reference}"⟩]
    else []

namespace FxService

def convertWithin (quote : FxQuote) (input : ConvertInput) : List PostingInput :=
  let ids := accounts.conversion quote.sourceCurrency quote.targetCurrency
  [sourceLeg ids quote input, targetLeg ids quote input]

end FxService

/-- The credit of a payment, converted at a quote or not, and its fee, from the same balance. -/
def PaymentSettlementService.credit (payment : Payment) (transaction : Transaction)
    (wallet : Wallet) (quote : Option FxQuote) (into : WalletBalance) : List PostingInput :=
  let reference := s!"payment:{transaction.reference}"
  let description := s!"Payment {transaction.reference}"
  let credited := match quote with
    | some quote => quote.targetAmount
    | none => payment.amount
  let fee := if transaction.feeAmount < credited then transaction.feeAmount else credited
  (match quote with
    | some quote => FxService.convertWithin accounts quote {
        quoteId := quote.id
        reference := reference
        description := description
        sourceDebitAccountId := accounts.externalClearing quote.sourceCurrency
        targetCreditAccountId := balanceAccount wallet into }
    | none => [WalletsService.depositWithin wallet (accounts.externalClearing wallet.currency)
        ⟨payment.amount, reference, description⟩ into]) ++
    if fee > 0 then
      [WalletsService.collectFeeWithin wallet (accounts.feeRevenue wallet.currency) into
        ⟨fee, s!"fee:{reference}", s!"Fee for payment {transaction.reference}"⟩]
    else []

/-- The held funds leave the wallet; for a converted payment the charged currency goes back out. -/
def RefundsService.complete (refund : Refund) (wallet : Wallet) : List PostingInput :=
  let reference := s!"refund:{refund.reference}"
  let held : PostingEntry := ⟨wallet.reservedAccountId, .debit, refund.walletDebitAmount⟩
  if refund.currency = refund.walletCurrency then
    [{ reference := reference
       description := s!"Refund {refund.reference}"
       currency := refund.walletCurrency
       entries := [held,
         ⟨accounts.externalClearing refund.walletCurrency, .credit, refund.walletDebitAmount⟩] }]
  else
    [{ reference := reference
       description := s!"Refund {refund.reference}"
       currency := refund.walletCurrency
       entries := held ::
         (if refund.revenueReversal > 0 then
           [⟨accounts.fxRevenue refund.walletCurrency, .debit, refund.revenueReversal⟩] else []) ++
         [⟨accounts.fxPosition refund.walletCurrency, .credit, refund.grossReversal⟩] },
     { reference := s!"{reference}:fx-source"
       description := s!"Refund {refund.reference} ({refund.currency} leg)"
       currency := refund.currency
       entries := [⟨accounts.fxPosition refund.currency, .debit, refund.amount⟩,
         ⟨accounts.externalClearing refund.currency, .credit, refund.amount⟩] }]

namespace PayoutsService

/-- The held amount leaves the wallet, and the fee after it. -/
def complete (payout : Payout) (transaction : Transaction) (wallet : Wallet) : List PostingInput :=
  { reference := s!"payout:{payout.reference}"
    description := s!"Payout {payout.reference}"
    currency := payout.currency
    entries := [⟨wallet.reservedAccountId, .debit, payout.amount⟩,
      ⟨accounts.externalClearing payout.currency, .credit, payout.amount⟩] } ::
    if transaction.feeAmount > 0 then
      [WalletsService.collectFeeWithin wallet (accounts.feeRevenue wallet.currency) .reserved
        ⟨transaction.feeAmount, s!"fee:payout:{payout.reference}",
          s!"Fee for payout {payout.reference}"⟩]
    else []

/-- The provider returned a completed payout: the wallet is credited back, and its fee. -/
def reverse (payout : Payout) (transaction : Transaction) (wallet : Wallet) : List PostingInput :=
  { reference := s!"payout-reversal:{payout.reference}"
    description := s!"Reversal of payout {payout.reference}"
    currency := payout.currency
    entries := [⟨accounts.externalClearing payout.currency, .debit, payout.amount⟩,
      ⟨wallet.availableAccountId, .credit, payout.amount⟩] } ::
    if transaction.feeAmount > 0 then
      [WalletsService.refundFeeWithin wallet (accounts.feeRevenue wallet.currency)
        ⟨transaction.feeAmount, s!"fee-refund:payout:{payout.reference}",
          s!"Fee refund for reversed payout {payout.reference}"⟩]
    else []

/-- The hold of a new payout: its amount and fee. -/
def createWithHold (payout : Payout) (transaction : Transaction) (wallet : Wallet) :
    List PostingInput :=
  [WalletsService.reserveWithin wallet ⟨transaction.amount + transaction.feeAmount,
    s!"payout-hold:{payout.reference}", s!"Hold for payout {payout.reference}"⟩]

/-- The hold of a failed payout is released. -/
def fail (payout : Payout) (transaction : Transaction) (wallet : Wallet) : List PostingInput :=
  [WalletsService.releaseWithin wallet ⟨payout.amount + transaction.feeAmount,
    s!"payout-release:{payout.reference}", s!"Release hold for failed payout {payout.reference}"⟩]

end PayoutsService

namespace RefundsService

/-- The hold of a new refund. -/
def createWithHold (refund : Refund) (wallet : Wallet) : List PostingInput :=
  [WalletsService.reserveSplitWithin wallet ⟨refund.walletDebitAmount,
    s!"refund-hold:{refund.reference}", s!"Hold for refund {refund.reference}"⟩
    refund.pendingHoldAmount]

/-- The hold of a failed refund is released, a part of it to pending. -/
def fail (refund : Refund) (wallet : Wallet) (toPending : Int) : List PostingInput :=
  [WalletsService.releaseSplitWithin wallet ⟨refund.walletDebitAmount,
    s!"refund-release:{refund.reference}", s!"Release hold for failed refund {refund.reference}"⟩
    toPending]

end RefundsService

/-- The end of a payment's settlement hold. -/
def SettlementReleaseService.release (payment : Payment) (wallet : Wallet) : List PostingInput :=
  [WalletsService.makeAvailableWithin wallet ⟨payment.pendingAmount, s!"settlement:{uuidText payment.id}",
    s!"Settlement of payment {uuidText payment.id}"⟩]

/-- An operation that posts, with the rows that it has read. -/
inductive LedgerOperation where
  | transfer (source destination : Wallet) (transaction : Transaction) (description : Option String)
  | credit (payment : Payment) (transaction : Transaction) (wallet : Wallet)
      (quote : Option FxQuote) (into : WalletBalance)
  | convert (quote : FxQuote) (input : ConvertInput)
  | completeRefund (refund : Refund) (wallet : Wallet)
  | completePayout (payout : Payout) (transaction : Transaction) (wallet : Wallet)
  | reversePayout (payout : Payout) (transaction : Transaction) (wallet : Wallet)
  | holdPayout (payout : Payout) (transaction : Transaction) (wallet : Wallet)
  | releasePayout (payout : Payout) (transaction : Transaction) (wallet : Wallet)
  | holdRefund (refund : Refund) (wallet : Wallet)
  | releaseRefund (refund : Refund) (wallet : Wallet) (toPending : Int)
  | settle (payment : Payment) (wallet : Wallet)
deriving DecidableEq, Repr

def LedgerOperation.postings : LedgerOperation → List PostingInput
  | .transfer source destination transaction description =>
    TransfersService.transfer accounts source destination transaction description
  | .credit payment transaction wallet quote into =>
    PaymentSettlementService.credit accounts payment transaction wallet quote into
  | .convert quote input => FxService.convertWithin accounts quote input
  | .completeRefund refund wallet => RefundsService.complete accounts refund wallet
  | .completePayout payout transaction wallet =>
    PayoutsService.complete accounts payout transaction wallet
  | .reversePayout payout transaction wallet =>
    PayoutsService.reverse accounts payout transaction wallet
  | .holdPayout payout transaction wallet => PayoutsService.createWithHold payout transaction wallet
  | .releasePayout payout transaction wallet => PayoutsService.fail payout transaction wallet
  | .holdRefund refund wallet => RefundsService.createWithHold refund wallet
  | .releaseRefund refund wallet toPending => RefundsService.fail refund wallet toPending
  | .settle payment wallet => SettlementReleaseService.release payment wallet

/-- A database transaction: an operation, and those of its postings that are not replays. A replay
locks nothing. -/
structure LedgerTxn where
  operation : LedgerOperation
  issued : List PostingInput
  isSublist : issued.Sublist (operation.postings accounts)

/-- The accounts that postings lock, one posting after another, each in id order. -/
def lockSequence (postings : List PostingInput) : List Uuid :=
  postings.flatMap fun posting => LedgerService.lockOrder (posting.entries.map (·.accountId))

end Finstack
