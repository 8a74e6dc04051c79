import Mathlib.Init

/-! # Supported currencies

Amounts are integers in minor units; each currency has its own exponent.
-/

namespace Finstack

/-- ISO 4217 code and minor-unit exponent of every supported currency. -/
def CURRENCIES : List (String × Nat) :=
  [("NGN", 2), ("USD", 2), ("EUR", 2), ("GBP", 2), ("GHS", 2), ("KES", 2), ("ZAR", 2), ("JPY", 0)]

def isSupportedCurrency (value : String) : Bool :=
  CURRENCIES.any fun currency => currency.1 == value

/-- The columns' CHECK: three capital letters. -/
def isCurrencyCode (value : String) : Bool :=
  value.toList.length == 3 && value.toList.all fun c => 'A' ≤ c && c ≤ 'Z'

theorem isCurrencyCode_of_supported {value : String} (supported : isSupportedCurrency value = true) :
    isCurrencyCode value = true := by
  simp only [isSupportedCurrency, CURRENCIES, List.any_cons, List.any_nil, Bool.or_eq_true,
    beq_iff_eq, Bool.or_false] at supported
  rcases supported with rfl | rfl | rfl | rfl | rfl | rfl | rfl | rfl <;> decide

end Finstack
