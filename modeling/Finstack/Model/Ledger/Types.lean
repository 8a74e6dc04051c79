import Finstack.Foundation.Table

/-! # Ledger rows

Accounts, transactions and entries as the tables hold them, and the system accounts every module
posts to.
-/

namespace Finstack

open Foundation

/-- A UUID as the 128-bit number it is; its order is the order of the text. -/
abbrev Uuid := Fin (2 ^ 128)

instance Uuid.neZero : NeZero (2 ^ 128) := ⟨by decide⟩

instance Uuid.lawfulBEq : LawfulBEq Uuid := inferInstance

def hexDigit (digit : Nat) : Char :=
  "0123456789abcdef".toList.getD (digit % 16) '0'

theorem hexDigit_mod (digit : Nat) : hexDigit (digit % 16) = hexDigit digit := by
  rw [hexDigit, hexDigit, Nat.mod_mod]

/-- The last `count` hexadecimal digits, most significant first. -/
def hexDigits : Nat → Nat → List Char
  | 0, _ => []
  | count + 1, value => hexDigits count (value / 16) ++ [hexDigit value]

theorem length_hexDigits (count value : Nat) : (hexDigits count value).length = count := by
  induction count generalizing value with
  | zero => rfl
  | succ count ih => simp [hexDigits, ih]

/-- What holds of the sixteen digits holds of all in a text of digits. -/
theorem forall_mem_hexDigits {P : Char → Prop} (each : ∀ digit < 16, P (hexDigit digit))
    (count value : Nat) : ∀ c ∈ hexDigits count value, P c := by
  induction count generalizing value with
  | zero => exact fun c mem => by cases mem
  | succ count ih =>
    intro c mem
    simp only [hexDigits, List.mem_append, List.mem_singleton] at mem
    obtain earlier | rfl := mem
    · exact ih _ c earlier
    · exact hexDigit_mod value ▸ each (value % 16) (Nat.mod_lt _ (by decide))

/-- The usual text of a UUID: 32 digits in groups of 8, 4, 4, 4 and 12. -/
def uuidText (id : Uuid) : String :=
  let digits := hexDigits 32 id
  String.ofList (digits.take 8 ++ '-' :: (digits.drop 8).take 4 ++ '-' :: (digits.drop 12).take 4
    ++ '-' :: (digits.drop 16).take 4 ++ '-' :: digits.drop 20)

theorem forall_mem_uuidText {P : Char → Prop} (each : ∀ digit < 16, P (hexDigit digit)) (dash : P '-')
    (id : Uuid) : ∀ c ∈ (uuidText id).toList, P c := by
  have digits := forall_mem_hexDigits each 32 id
  unfold uuidText
  generalize hexDigits 32 id = text at digits
  have part : ∀ m n, ∀ c ∈ (text.drop m).take n, P c :=
    fun m n c member => digits c (List.mem_of_mem_drop (List.mem_of_mem_take member))
  intro c member
  simp only [String.toList_ofList, List.mem_append, List.mem_cons] at member
  rcases member with (((first | rfl | second) | rfl | third) | rfl | fourth) | rfl | fifth
  · exact digits c (List.mem_of_mem_take first)
  · exact dash
  · exact part 8 4 c second
  · exact dash
  · exact part 12 4 c third
  · exact dash
  · exact part 16 4 c fourth
  · exact dash
  · exact digits c (List.mem_of_mem_drop fifth)

inductive LedgerAccountType where
  | asset
  | liability
  | equity
  | revenue
  | expense
deriving DecidableEq, Repr

inductive EntryDirection where
  | debit
  | credit
deriving DecidableEq, Repr

namespace EntryDirection

def opposite : EntryDirection → EntryDirection
  | .debit => .credit
  | .credit => .debit

@[simp] theorem opposite_opposite (d : EntryDirection) : d.opposite.opposite = d := by
  cases d <;> rfl

end EntryDirection

/-- The side on which an account type increases: assets and expenses grow with debits. -/
def normalBalanceFor : LedgerAccountType → EntryDirection
  | .asset | .expense => .debit
  | .liability | .equity | .revenue => .credit

structure LedgerAccount where
  id : Uuid
  code : Option String
  name : String
  type : LedgerAccountType
  normalBalance : EntryDirection
  currency : String
  /-- Cached balance in minor units, on the account's normal side. -/
  balance : Int
  allowNegativeBalance : Bool
deriving DecidableEq, Repr

instance : Keyed LedgerAccount Uuid := ⟨LedgerAccount.id⟩

structure LedgerTransaction where
  id : Uuid
  /-- Caller-supplied idempotency reference: one posting per reference, ever. -/
  reference : String
  description : String
  currency : String
  /-- Total of the debit side, in minor units. -/
  amount : Int
  reversalOfId : Option Uuid
deriving DecidableEq, Repr

instance : Keyed LedgerTransaction Uuid := ⟨LedgerTransaction.id⟩

structure LedgerEntry where
  ledgerTransactionId : Uuid
  ledgerAccountId : Uuid
  direction : EntryDirection
  amount : Int
  currency : String
deriving DecidableEq, Repr

namespace LedgerAccount

/-- An amount as it moves this account's balance. -/
def signed (account : LedgerAccount) (direction : EntryDirection) (amount : Int) : Int :=
  if direction = account.normalBalance then amount else -amount

def credited (account : LedgerAccount) (delta : Int) : LedgerAccount :=
  { account with balance := account.balance + delta }

@[simp] theorem signed_credited (account : LedgerAccount) (delta : Int) (direction : EntryDirection)
    (amount : Int) : (account.credited delta).signed direction amount =
      account.signed direction amount := rfl

@[simp] theorem credited_zero (account : LedgerAccount) : account.credited 0 = account := by
  simp [credited]

@[simp] theorem credited_credited (account : LedgerAccount) (first second : Int) :
    (account.credited first).credited second = account.credited (first + second) := by
  simp [credited, add_assoc]

end LedgerAccount

/-- What a module asks for when it needs one of the platform's own accounts. -/
structure CreateLedgerAccountInput where
  name : String
  type : LedgerAccountType
  currency : String
  code : Option String := none
  allowNegativeBalance : Bool := false
deriving DecidableEq, Repr

/-! ## The platform's own accounts, one per currency -/

namespace SystemAccounts

structure Definition where
  code : String
  name : String
  type : LedgerAccountType
  currency : String
  allowNegativeBalance : Bool := false
deriving DecidableEq, Repr

/-- Money held at payment providers and banks; may go negative while settlements are in flight. -/
def externalClearing (currency : String) : Definition where
  code := s!"system:external-clearing:{currency}"
  name := s!"External clearing ({currency})"
  type := .asset
  currency := currency
  allowNegativeBalance := true

/-- Each currency's side of FX conversions: the platform's open FX exposure. -/
def fxPosition (currency : String) : Definition where
  code := s!"system:fx-position:{currency}"
  name := s!"FX position ({currency})"
  type := .asset
  currency := currency
  allowNegativeBalance := true

/-- Fees charged on payments, payouts and transfers. -/
def feeRevenue (currency : String) : Definition where
  code := s!"system:fee-revenue:{currency}"
  name := s!"Fee revenue ({currency})"
  type := .revenue
  currency := currency

/-- Spread earned on conversions. -/
def fxRevenue (currency : String) : Definition where
  code := s!"system:fx-revenue:{currency}"
  name := s!"FX revenue ({currency})"
  type := .revenue
  currency := currency

end SystemAccounts

end Finstack
