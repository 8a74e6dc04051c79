import Mathlib.Data.List.Basic
import Finstack.Model.Services.Calls
import Finstack.Soundness.Pagination.Cursor

/-! # What postings are called

The reference of every posting names what the posting does and the record it does it for. Two
references are the same only for the same purpose and the same record, as a record's own name has no
colon.
-/

namespace Finstack.Services

/-- What a posting does. -/
inductive Purpose where
  | payment
  | paymentSource
  | paymentTarget
  | paymentFee
  | settlement
  | refundHold
  | refund
  | refundSource
  | refundRelease
  | payoutHold
  | payout
  | payoutFee
  | payoutRelease
  | payoutReversal
  | payoutFeeRefund
  | transfer
  | transferFee
deriving DecidableEq, Repr

namespace Purpose

/-- The parts of a reference before the name of the record. -/
def before : Purpose → List (List Char)
  | .payment | .paymentSource | .paymentTarget => ["payment".toList]
  | .paymentFee => ["fee".toList, "payment".toList]
  | .settlement => ["settlement".toList]
  | .refundHold => ["refund-hold".toList]
  | .refund | .refundSource => ["refund".toList]
  | .refundRelease => ["refund-release".toList]
  | .payoutHold => ["payout-hold".toList]
  | .payout => ["payout".toList]
  | .payoutFee => ["fee".toList, "payout".toList]
  | .payoutRelease => ["payout-release".toList]
  | .payoutReversal => ["payout-reversal".toList]
  | .payoutFeeRefund => ["fee-refund".toList, "payout".toList]
  | .transfer => ["transfer".toList]
  | .transferFee => ["fee".toList, "transfer".toList]

/-- The parts after it. -/
def after : Purpose → List (List Char)
  | .paymentSource | .refundSource => ["fx-source".toList]
  | .paymentTarget => ["fx-target".toList]
  | _ => []

theorem no_colon (purpose : Purpose) : ∀ part ∈ purpose.before ++ purpose.after, ':' ∉ part := by
  cases purpose <;> decide

/-- The frames of two purposes differ, whatever they are put around. -/
theorem eq_of_parts {purpose purpose' : Purpose} {name name' : List Char}
    (same : purpose.before ++ name :: purpose.after = purpose'.before ++ name' :: purpose'.after) :
    purpose = purpose' ∧ name = name' := by
  cases purpose <;> cases purpose' <;> simp [before, after] at same ⊢ <;> exact same

end Purpose

/-- The reference of a posting for the record with this name. -/
def postingReference (purpose : Purpose) (name : String) : String :=
  String.ofList ([':'].intercalate (purpose.before ++ name.toList :: purpose.after))

/-- The reference as the services write it. -/
def Purpose.text (name : String) : Purpose → String
  | .payment => s!"payment:{name}"
  | .paymentSource =>
    let payment := s!"payment:{name}"
    s!"{payment}:fx-source"
  | .paymentTarget =>
    let payment := s!"payment:{name}"
    s!"{payment}:fx-target"
  | .paymentFee => s!"fee:payment:{name}"
  | .settlement => s!"settlement:{name}"
  | .refundHold => s!"refund-hold:{name}"
  | .refund => s!"refund:{name}"
  | .refundSource => s!"refund:{name}:fx-source"
  | .refundRelease => s!"refund-release:{name}"
  | .payoutHold => s!"payout-hold:{name}"
  | .payout => s!"payout:{name}"
  | .payoutFee => s!"fee:payout:{name}"
  | .payoutRelease => s!"payout-release:{name}"
  | .payoutReversal => s!"payout-reversal:{name}"
  | .payoutFeeRefund => s!"fee-refund:payout:{name}"
  | .transfer => s!"transfer:{name}"
  | .transferFee => s!"fee:transfer:{name}"

theorem Purpose.text_eq (purpose : Purpose) (name : String) :
    purpose.text name = postingReference purpose name := by
  refine String.toList_injective ?_
  unfold text postingReference before after
  cases purpose <;> simp [toString]

/-- The name has no colon. -/
def Colonless (name : String) : Prop := ':' ∉ name.toList

instance (name : String) : Decidable (Colonless name) := inferInstanceAs (Decidable (¬ _))

theorem colonless_uuidText (id : Uuid) : Colonless (uuidText id) := fun colon =>
  forall_mem_uuidText (P := (· ≠ ':')) (by decide) (by decide) id ':' colon rfl

/-- Random references are a tag and hexadecimal digits. -/
theorem colonless_random {tag : String} (plain : Colonless tag) (count random : Nat) :
    Colonless (tag ++ String.ofList (hexDigits count random)) := by
  unfold Colonless at plain ⊢
  rw [String.toList_append, String.toList_ofList, List.mem_append, not_or]
  exact ⟨plain, fun colon => forall_mem_hexDigits (P := (· ≠ ':')) (by decide) count random ':' colon rfl⟩

theorem uuidText_injective : Function.Injective uuidText := by
  intro id other same
  have read := uuidOf_uuidText id
  rw [same, uuidOf_uuidText other] at read
  exact (Option.some.inj read).symm

theorem postingReference_inj {purpose purpose' : Purpose} {name name' : String} (plain : Colonless name)
    (plain' : Colonless name')
    (same : postingReference purpose name = postingReference purpose' name') :
    purpose = purpose' ∧ name = name' := by
  have parts : ∀ (purpose : Purpose) {name : String}, Colonless name →
      ([':'].intercalate (purpose.before ++ name.toList :: purpose.after)).splitOn ':' =
        purpose.before ++ name.toList :: purpose.after := by
    intro purpose name plain
    refine List.splitOn_intercalate ':' (fun part member => ?_) (by simp)
    rcases List.mem_append.mp member with first | later
    · exact purpose.no_colon part (List.mem_append_left _ first)
    · rcases List.mem_cons.mp later with rfl | last
      · exact plain
      · exact purpose.no_colon part (List.mem_append_right _ last)
  have texts := congrArg (List.splitOn ':') (String.ofList_injective same)
  rw [parts purpose plain, parts purpose' plain'] at texts
  obtain ⟨rfl, names⟩ := Purpose.eq_of_parts texts
  exact ⟨rfl, String.toList_injective names⟩

theorem Purpose.text_ne (purpose other : Purpose) {name : String} (plain : Colonless name)
    (apart : purpose ≠ other) : purpose.text name ≠ other.text name := by
  rw [text_eq, text_eq]
  exact fun same => apart (postingReference_inj plain plain same).1

end Finstack.Services
