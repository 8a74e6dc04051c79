import Finstack.Model.Currency
import Finstack.Model.Errors
import Finstack.Model.Ledger.Types
import Mathlib.Data.Multiset.Basic

/-! # Postings and their validation

The double-entry rules checked before the database is touched.
-/

namespace Finstack

structure PostingEntry where
  accountId : Uuid
  direction : EntryDirection
  /-- Minor units, strictly positive. -/
  amount : Int
deriving DecidableEq, Repr

structure PostingInput where
  /-- Idempotency key: posting the same reference twice has one effect. -/
  reference : String
  description : String
  currency : String
  entries : List PostingEntry
  reversalOfId : Option Uuid := none
deriving DecidableEq, Repr

/-- `throw new InvalidPostingError(reason)`. -/
def invalidPostingError (reason : String) : Err :=
  .internal "InvalidPostingError" s!"Invalid ledger posting: {reason}"

/-- The characters `String.prototype.trim` removes. -/
def isTrimmed (c : Char) : Bool :=
  (9 ≤ c.toNat && c.toNat ≤ 13) || c.toNat == 0x20 || c.toNat == 0xA0 || c.toNat == 0x1680 ||
    (0x2000 ≤ c.toNat && c.toNat ≤ 0x200A) || c.toNat == 0x2028 || c.toNat == 0x2029 ||
    c.toNat == 0x202F || c.toNat == 0x205F || c.toNat == 0x3000 || c.toNat == 0xFEFF

/-- `value.trim().length === 0`. -/
def isBlank (value : String) : Bool :=
  value.toList.all isTrimmed

/-- `value.length`: UTF-16 code units. -/
def utf16Length (value : String) : Nat :=
  (value.toList.map fun c => if c.toNat < 0x10000 then 1 else 2).sum

/-- The entries' total on one side. -/
def sideTotal (direction : EntryDirection) (entries : List PostingEntry) : Int :=
  (entries.map fun entry => if entry.direction = direction then entry.amount else 0).sum

/-- Enforces the double-entry rules and returns the transaction amount. -/
def validatePosting (input : PostingInput) : Except Err Int :=
  if isBlank input.reference ∨ utf16Length input.reference > 255 then
    .error (invalidPostingError "reference must be 1-255 characters")
  else if ¬ isSupportedCurrency input.currency then
    .error (invalidPostingError s!"unsupported currency {input.currency}")
  else if input.entries.length < 2 then
    .error (invalidPostingError "at least two entries are required")
  else if input.entries.any (fun entry => entry.amount ≤ 0) then
    .error (invalidPostingError "entry amounts must be positive bigints")
  else
    let debits := sideTotal .debit input.entries
    let credits := sideTotal .credit input.entries
    if debits = 0 ∨ credits = 0 then
      .error (invalidPostingError "a posting needs both debit and credit entries")
    else if debits ≠ credits then
      .error (invalidPostingError s!"debits ({debits}) must equal credits ({credits})")
    else
      .ok debits

/-- Order-insensitive fingerprint of the entries: sorting and joining them forgets their order and
nothing else. -/
def entriesFingerprint (entries : List PostingEntry) : Multiset PostingEntry :=
  entries

/-- A posting that passed validation. -/
structure ValidPosting (input : PostingInput) (amount : Int) : Prop where
  reference : isBlank input.reference = false ∧ utf16Length input.reference ≤ 255
  currency : isSupportedCurrency input.currency = true
  two : 2 ≤ input.entries.length
  positive : ∀ entry ∈ input.entries, 0 < entry.amount
  debits : sideTotal .debit input.entries = amount
  credits : sideTotal .credit input.entries = amount
  moves : amount ≠ 0

theorem validatePosting_ok_iff {input : PostingInput} {amount : Int} :
    validatePosting input = .ok amount ↔ ValidPosting input amount := by
  constructor
  · intro success
    simp only [validatePosting] at success
    split_ifs at success with name currency two positive sides balanced
    obtain rfl := Except.ok.inj success
    simp only [not_or, Bool.not_eq_true, not_lt, List.any_eq_true, decide_eq_true_eq, not_exists,
      not_and, not_le] at name currency two positive sides
    exact ⟨name, by simpa using currency, two, positive, rfl, (not_not.mp balanced).symm, sides.1⟩
  · rintro ⟨⟨blank, short⟩, currency, two, positive, rfl, credits, moves⟩
    have none : ¬ (input.entries.any fun entry => entry.amount ≤ 0) = true := by
      simpa using positive
    simp [validatePosting, blank, short.not_gt, currency, two.not_gt, none, credits, moves]

theorem sideTotal_perm {direction : EntryDirection} {entries entries' : List PostingEntry}
    (perm : entries.Perm entries') : sideTotal direction entries = sideTotal direction entries' :=
  (perm.map _).sum_eq

/-- The amount of a valid posting is positive. -/
theorem ValidPosting.amount_pos {input : PostingInput} {amount : Int}
    (valid : ValidPosting input amount) : 0 < amount := by
  have nonneg : 0 ≤ amount := by
    rw [← valid.debits]
    apply List.sum_nonneg
    intro value member
    obtain ⟨entry, present, rfl⟩ := List.mem_map.mp member
    have := valid.positive entry present
    split_ifs <;> omega
  have := valid.moves
  omega

end Finstack
