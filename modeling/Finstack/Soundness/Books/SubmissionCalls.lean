import Finstack.Model.Services.Submission
import Finstack.Soundness.Books.OpeningCalls
import Finstack.Soundness.Books.PayoutCalls
import Finstack.Soundness.Books.RefundCalls

/-! # Calls that deal with a provider

Whatever the providers answer, the books are kept: by the settlement of payments, by the submission of
payouts and refunds, and by the sweeps.
-/

namespace Finstack

open Foundation Discipline

namespace Services

variable {α : Type} {mode : Mode} {T : Db → Db → Prop} {F : Knowing} {held : List RowLock} {c : Db}

/-- Nothing needs to be known from one turn to the next. -/
theorem keeping_forEach {body : Nat → α → DbTxn Unit}
    (turn : ∀ n a, Keeping .outside T F (body n a) (fun _ => T) fun _ => F) (n : Nat) (xs : List α) :
    Keeping .outside T F (forEach body n xs) (fun _ => T) fun _ => F := by
  induction xs generalizing n with
  | nil => exact keeping_stay
  | cons a rest ih => exact (turn n a).bind fun _ => ih (n + 1)

/-- Nothing is known of what is left. -/
theorem keeping_forget {x : DbTxn α} {R : α → Knowing}
    (keeping : Keeping .outside T Fact.nothing x (fun _ => T) R) :
    Keeping .outside T F x (fun _ => T) fun _ => Fact.nothing :=
  Leads.mono (fun _ _ _ _ => trivial) (fun _ _ _ _ _ => trivial) keeping

/-! ## Payments -/

theorem PaymentsService.keeping_getOwned (owner : Owner) (paymentId : Uuid) :
    Keeping .outside T F (PaymentsService.getOwned owner paymentId) (fun _ => T)
      fun answer => F.and (filedPayment answer.payment) :=
  (keeping_queryCommitted.bind fun _ => keeping_orThrow).bind fun payment =>
    PaymentsService.keeping_view payment

namespace PaymentSettlementService

theorem keeping_verifyPayment (providers : Providers) (payment : Payment) (providerReference : String) :
    Keeping .outside T (filedPayment payment) (verifyPayment providers payment providerReference)
      (fun _ => T) fun _ => filedPayment payment :=
  leads_tryCatch ((TransactionsService.keeping_getById _).bind fun _ =>
    keeping_ret.bind fun _ => keeping_stay) fun _ => keeping_throw

theorem keeping_settleVerified (fresh : Fresh) (setting : Setting) (payment : Payment)
    (verified : VerifyPaymentResult) :
    Keeping .outside T (filedPayment payment) (settleVerified fresh setting payment verified) (fun _ => T)
      fun _ => Fact.nothing := by
  unfold settleVerified
  cases verified.status with
  | pending => exact keeping_pure fun _ _ _ _ => trivial
  | failed => exact keeping_fail _ _ _
  | successful =>
    dsimp only
    split_ifs
    · exact (keeping_fail _ _ _).bind fun outcome => keeping_stay
    · exact keeping_credit _ _ _

theorem keeping_settle (fresh : Fresh) (setting : Setting) (providers : Providers) (payment : Payment) :
    Keeping .outside T (filedPayment payment) (settle fresh setting providers payment) (fun _ => T)
      fun _ => Fact.nothing := by
  unfold settle
  cases given payment.providerReference with
  | none => exact keeping_pure fun _ _ _ _ => trivial
  | some providerReference =>
    refine (keeping_verifyPayment _ _ _).bind fun answer => ?_
    cases answer with
    | error thrown =>
      dsimp only
      split_ifs
      · exact keeping_pure fun _ _ _ _ => trivial
      · exact keeping_throw
    | ok verified => exact keeping_settleVerified _ _ _ _

theorem keeping_verify (fresh : Fresh) (setting : Setting) (providers : Providers) (owner : Owner)
    (paymentId : Uuid) :
    Keeping .outside T Fact.nothing (verify fresh setting providers owner paymentId) (fun _ => T)
      fun _ => Fact.nothing := by
  refine (PaymentsService.keeping_getOwned _ _).bind fun before => Leads.bind (R := fun _ => Fact.nothing)
    (Leads.mono (fun _ _ _ known => known.2) (fun _ _ _ _ known => known) (keeping_settle _ _ _ before.payment))
    fun _ => keeping_less (PaymentsService.keeping_getOwned _ _) fun _ _ _ _ => trivial

theorem keeping_settleFromWebhook (fresh : Fresh) (setting : Setting) (providers : Providers)
    (provider providerReference : String) :
    Keeping .outside T Fact.nothing (settleFromWebhook fresh setting providers provider providerReference)
      (fun _ => T) fun _ => Fact.nothing := by
  refine (keeping_each (K := filedPayment) fun _ _ payment _ _ found => ?_).bind fun found => ?_
  · exact ⟨payment, Table.find?_of_mem (List.mem_of_find?_eq_some found), .refl payment⟩
  cases found with
  | some payment =>
    exact Leads.bind (Leads.mono (fun _ _ _ known => known.2) (fun _ _ _ _ known => known)
      (keeping_settle _ _ _ payment)) fun outcome => keeping_stay
  | none => exact keeping_pure fun _ _ _ _ => trivial

end PaymentSettlementService

namespace SettlementReleaseService

theorem keeping_releaseDue (fresh : Fresh) (limit : Nat) :
    Keeping .outside T Fact.nothing (releaseDue fresh limit) (fun _ => T) fun _ => Fact.nothing :=
  keeping_queryCommitted.bind fun found => keeping_forEach (fun _ _ =>
    (keeping_release _ _ _).bind fun _ => keeping_stay) 0 found

theorem keeping_releaseEarly (id paymentId : Uuid) :
    Keeping .outside T Fact.nothing (releaseEarly id paymentId) (fun _ => T) fun _ => Fact.nothing :=
  (keeping_release _ _ _).bind fun _ => keeping_queryCommitted.bind fun _ => keeping_orThrow

end SettlementReleaseService

/-! ## Payouts -/

namespace PayoutsService

theorem keeping_claimSubmission (payoutId : Uuid) :
    Keeping mode T F (claimSubmission payoutId) (fun _ => T) fun _ => F := by
  refine keeping_alike fun c _ write books done => ?_
  split_ifs at done
  · cases done
    exact .inr ⟨writes_modifyPayout _ fun _ => rfl, Db.alike_payout (fun _ => rfl) books.linked⟩
  · cases done
    exact .inl rfl

theorem keeping_setProviderReference (payoutId : Uuid) (reference : String) :
    Keeping mode T F (setProviderReference payoutId reference) (fun _ => T) fun _ => F := by
  refine keeping_alike fun c _ write books done => ?_
  cases done
  exact .inr ⟨writes_modifyPayout _ fun _ => rfl, Db.alike_payout (fun _ => rfl) books.linked⟩

theorem keeping_ask (payouts : PayoutCapability) (sent : PayoutView) :
    Keeping mode T F (ask payouts sent) (fun _ => T) fun _ => F := by
  unfold ask
  dsimp only
  split
  · exact keeping_stay
  · exact keeping_stay
  · split_ifs
    · refine (keeping_claimSubmission _).bind fun claimed => ?_
      split_ifs
      · exact keeping_stay
      · exact keeping_stay
    · exact keeping_stay

theorem keeping_withReference (payout : Payout) (result : PayoutResult) :
    Keeping mode T (filedPayout payout) (withReference payout result) (fun _ => T) filedPayout := by
  unfold withReference
  split_ifs
  · exact (keeping_setProviderReference _ _).bind fun _ => keeping_pure fun _ _ _ known => known
  · exact keeping_pure fun _ _ _ known => known

theorem keeping_settle (fresh : Fresh) (payout : Payout) (result : PayoutResult) :
    Keeping .outside T (filedPayout payout) (settle fresh payout result) (fun _ => T)
      fun _ => Fact.nothing := by
  unfold settle
  cases result.status with
  | successful => exact keeping_complete _ _
  | failed => exact keeping_fail _ _ _ _
  | reversed =>
    -- the payout is still the same after it has failed, or has not
    have again : Keeping .outside T (filedPayout payout)
        (fail (fresh 0) payout "PAYOUT_REVERSED" "The provider reversed the payout") (fun _ => T)
        fun _ => Fact.nothing.and (filedPayout payout) := 
      keeping_keep (fun _ _ => id) (keeping_fail _ _ _ _)
    exact again.bind fun _ =>
      Leads.mono (fun _ _ _ known => known.2) (fun _ _ _ _ known => known) (keeping_reverse _ _)
  | pending => exact keeping_pure fun _ _ _ _ => trivial

theorem keeping_submit (fresh : Fresh) (providers : Providers) (payoutId : Uuid) :
    Keeping .outside T Fact.nothing (submit fresh providers payoutId) (fun _ => T)
      fun _ => Fact.nothing := by
  refine (keeping_view payoutId).bind fun sent => ?_
  split_ifs
  · exact keeping_pure fun _ _ _ _ => trivial
  refine keeping_ret.bind fun payouts => (keeping_ask _ _).bind fun answer => ?_
  have known : ∀ held c, (Fact.nothing.and (filedPayout sent.payout)).holds held c →
      (filedPayout sent.payout).holds held c := fun _ _ known => known.2
  cases answer with
  | error thrown =>
    dsimp only
    split_ifs
    · exact Leads.mono (fun held c _ => known held c) (fun _ _ _ _ known => known) (keeping_fail _ _ _ _)
    · exact keeping_pure fun _ _ _ _ => trivial
  | ok found =>
    cases found with
    | none => exact keeping_pure fun _ _ _ _ => trivial
    | some result =>
      exact Leads.bind (Leads.mono (fun held c _ => known held c) (fun _ _ _ _ known => known)
        (keeping_withReference _ _)) fun payout => keeping_settle _ _ _

theorem keeping_sync (fresh : Fresh) (providers : Providers) (payoutId : Uuid) :
    Keeping .outside T Fact.nothing (sync fresh providers payoutId) (fun _ => T) fun _ => Fact.nothing :=
  (keeping_submit _ _ _).bind fun _ => keeping_forget (keeping_view _)

theorem keeping_syncFromWebhook (fresh : Fresh) (providers : Providers) (provider reference : String) :
    Keeping .outside T Fact.nothing (syncFromWebhook fresh providers provider reference) (fun _ => T)
      fun _ => Fact.nothing := by
  refine keeping_queryCommitted.bind fun found => ?_
  cases found with
  | some payout => exact (keeping_submit _ _ _).bind fun _ => keeping_stay
  | none => exact keeping_stay

theorem keeping_syncStale (fresh : Nat → Fresh) (providers : Providers) (olderThanMs limit : Nat) :
    Keeping .outside T Fact.nothing (syncStale fresh providers olderThanMs limit) (fun _ => T)
      fun _ => Fact.nothing :=
  keeping_queryCommitted.bind fun found => keeping_forEach (fun _ _ => keeping_submit _ _ _) 0 found

theorem keeping_requestSubmitted (generated : Generated) (providers : Providers) (owner : Owner)
    (input : RequestPayoutInput) (idempotencyKey : String) :
    Keeping .outside T Fact.nothing (requestSubmitted generated providers owner input idempotencyKey)
      (fun _ => T) fun _ => Fact.nothing := by
  refine keeping_queryCommitted.bind fun existing => ?_
  cases existing with
  | some existing => exact keeping_viewByTransaction _
  | none =>
    refine (keeping_queryCommitted.bind fun _ => keeping_orThrow).bind fun destination =>
      keeping_queryCommitted.bind fun now => ?_
    split_ifs
    · exact keeping_throw
    refine (keeping_sourceWallet _ _ _).bind fun wallet => keeping_ret.bind fun _ =>
      (FeesService.keeping_quote _ _ _ _).bind fun fee => ?_
    refine (leads_tryCatch ((keeping_inTransaction ?_).bind fun _ => keeping_stay) fun error =>
      (keeping_recover _ _ error).bind fun _ => keeping_stay).bind fun outcome => ?_
    · exact keeping_of_given (keeping_createWithHold _ _ _ _ _ _ _)
    cases outcome with
    | inl payout => exact (keeping_submit _ _ _).bind fun _ => keeping_forget (keeping_view _)
    | inr winner => exact keeping_stay

end PayoutsService

/-! ## Refunds -/

namespace RefundsService

theorem keeping_claimSubmission (refundId : Uuid) :
    Keeping mode T F (claimSubmission refundId) (fun _ => T) fun _ => F := by
  refine keeping_alike fun c _ write books done => ?_
  split_ifs at done
  · cases done
    exact .inr ⟨writes_modifyRefund _ fun _ => rfl, Db.alike_refund (fun _ => rfl) books.linked⟩
  · cases done
    exact .inl rfl

theorem keeping_setProviderReference (refundId : Uuid) (reference : String) :
    Keeping mode T F (setProviderReference refundId reference) (fun _ => T) fun _ => F := by
  refine keeping_alike fun c _ write books done => .inr ?_
  rw [same_of_databaseCheck done]
  exact ⟨writes_modifyRefund _ fun _ => rfl, Db.alike_refund (fun _ => rfl) books.linked⟩

theorem keeping_settleAs (fresh : Fresh) (refundId : Uuid)
    (status : PaymentProviders.ProviderPaymentStatus) :
    Keeping .outside T Fact.nothing (settleAs fresh refundId status) (fun _ => T)
      fun _ => Fact.nothing := by
  cases status with
  | successful => exact keeping_complete _ _
  | failed => exact keeping_fail _ _ _ _
  | pending => exact keeping_stay

theorem keeping_settle (fresh : Fresh) (refund : Refund) (result : RefundPaymentResult) :
    Keeping .outside T Fact.nothing (settle fresh refund result) (fun _ => T) fun _ => Fact.nothing := by
  unfold settle
  split_ifs
  · exact (keeping_setProviderReference _ _).bind fun _ => keeping_settleAs _ _ _
  · exact keeping_settleAs _ _ _

theorem keeping_send (fresh : Fresh) (provider : ProviderClient) (payment : Payment) (refund : Refund) :
    Keeping .outside T Fact.nothing (send fresh provider payment refund) (fun _ => T)
      fun _ => Fact.nothing := by
  refine (keeping_claimSubmission _).bind fun claimed => ?_
  split_ifs
  · split
    · split_ifs
      · exact keeping_fail _ _ _ _
      · exact keeping_stay
    · exact keeping_settle _ _ _
  · exact keeping_stay

theorem keeping_submit (fresh : Fresh) (providers : Providers) (refund : Refund) :
    Keeping .outside T F (submit fresh providers refund) (fun _ => T) fun _ => Fact.nothing := by
  refine keeping_forget (R := fun _ => Fact.nothing) ((keeping_queryCommitted.bind fun _ =>
    keeping_orThrow).bind fun payment => keeping_ret.bind fun provider => ?_)
  split
  · exact keeping_stay
  · exact keeping_settle _ _ _
  · exact keeping_send _ _ _ _

theorem keeping_retry (fresh : Fresh) (providers : Providers) (refundId : Uuid) :
    Keeping .outside T Fact.nothing (retry fresh providers refundId) (fun _ => T)
      fun _ => Fact.nothing := by
  refine Leads.bind (R := fun _ => Fact.nothing) (U := fun _ => T) (keeping_forget (keeping_view _))
    fun before => ?_
  split_ifs
  · exact (keeping_submit _ _ _).bind fun _ => keeping_forget (keeping_view _)
  · exact keeping_forget (keeping_view refundId)

theorem keeping_syncStale (fresh : Nat → Fresh) (providers : Providers) (olderThanMs limit : Nat) :
    Keeping .outside T Fact.nothing (syncStale fresh providers olderThanMs limit) (fun _ => T)
      fun _ => Fact.nothing :=
  keeping_queryCommitted.bind fun found => keeping_forEach
    (fun _ _ => leads_tryCatch (keeping_submit _ _ _) fun _ => keeping_stay) 0 found

theorem keeping_syncFromWebhook (fresh : Nat → Fresh) (providers : Providers) (provider reference : String) :
    Keeping .outside T Fact.nothing (syncFromWebhook fresh providers provider reference) (fun _ => T)
      fun _ => Fact.nothing := by
  have finds : Keeping .outside T Fact.nothing (findByTransactionReference reference) (fun _ => T)
      fun _ => Fact.nothing := by
    refine keeping_queryCommitted.bind fun found => ?_
    cases found with
    | some transaction => exact keeping_queryCommitted
    | none => exact keeping_stay
  refine finds.bind fun payment => keeping_queryCommitted.bind fun candidates =>
    (keeping_forEach (fun _ _ => keeping_submit _ _ _) 0 candidates).bind fun _ => ?_
  split_ifs
  · exact keeping_stay
  · exact keeping_queryCommitted.bind fun _ => keeping_stay

theorem keeping_requestSubmitted (generated : Generated) (providers : Providers) (adminId paymentId : Uuid)
    (input : RefundInput) (idempotencyKey : String) :
    Keeping .outside T Fact.nothing
      (requestSubmitted generated providers adminId paymentId input idempotencyKey) (fun _ => T)
      fun _ => Fact.nothing := by
  refine keeping_queryCommitted.bind fun existing => ?_
  cases existing with
  | some existing => exact keeping_forget (keeping_view _)
  | none =>
    refine (leads_tryCatch ((keeping_inTransaction (keeping_createWithHold _ _ _ _ _)).bind fun _ =>
      keeping_stay) fun error => (keeping_recover _ _ error).bind fun _ =>
        keeping_stay).bind fun outcome => ?_
    cases outcome with
    | inl refund => exact (keeping_submit _ _ _).bind fun _ => keeping_forget (keeping_view _)
    | inr winner => exact keeping_stay

end RefundsService

end Services

end Finstack
