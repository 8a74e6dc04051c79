import Finstack.Model.Currency
import Finstack.Model.Errors
import Finstack.Model.Tables

/-! # Limits

How much an owner may move per operation and currency, and what counts as moved.
-/

namespace Finstack

/-- `value.toLocaleString('en-US')`: commas between thousands. -/
def toLocaleString (value : Nat) : String :=
  let groups := (toString value).toList.reverse.toChunks 3
  ",".intercalate (groups.map fun group => String.ofList group.reverse).reverse

/-- `150000`, `NGN` -> `NGN 1,500.00`. -/
def formatMoney (minorUnits : Int) (currency : String) : String :=
  let exponent := (CURRENCIES.lookup currency).getD 2
  let scale := 10 ^ exponent
  let whole := toLocaleString (minorUnits.natAbs / scale)
  let digits := toString (minorUnits.natAbs % scale)
  let fraction :=
    if exponent > 0 then "." ++ "".pushn '0' (exponent - digits.length) ++ digits else ""
  let sign := if minorUnits < 0 then "-" else ""
  s!"{currency} {sign}{whole}{fraction}"

def limitExceededException (detail : String) : AppException :=
  ⟨"LIMIT_EXCEEDED", detail, HttpStatus.unprocessableEntity⟩

def LimitOperation.text : LimitOperation → String
  | .payment => "payment"
  | .payout => "payout"
  | .transfer => "transfer"

/-- What an owner has moved. -/
structure Usage where
  amount : Int
  count : Int
deriving DecidableEq, Repr

/-- What is to be moved. -/
structure LimitInput where
  owner : Owner
  operation : LimitOperation
  currency : String
  amount : Int
deriving DecidableEq, Repr

namespace TransactionsService

/-- In-flight transactions count, so they can't be used to exceed a limit. -/
def counts (owner : Owner) (type : TransactionType) (currency : String) (since : Nat)
    (transaction : Transaction) : Bool :=
  transaction.owner = owner && transaction.type = type && transaction.currency = currency &&
    transaction.createdAt ≥ since && !([.failed, .cancelled, .expired].contains transaction.status)

/-- What an owner has moved since `since`, among these transactions. -/
def usageWithin (transactions : List Transaction) (owner : Owner) (type : TransactionType)
    (currency : String) (since : Nat) : Usage :=
  let counted := transactions.filter (counts owner type currency since)
  ⟨(counted.map (·.amount)).sum, counted.length⟩

end TransactionsService

namespace LimitsService

def DAY_MS : Nat := 24 * 60 * 60 * 1000
def MONTH_MS : Nat := 30 * DAY_MS

def TRANSACTION_TYPES : LimitOperation → TransactionType
  | .payment => .payment
  | .payout => .withdrawal
  | .transfer => .transfer

/-- An organization's own rule, or the platform's default. -/
def activeRule (rules : List LimitRule) (operation : LimitOperation) (currency : String)
    (owner : Owner) : Option LimitRule :=
  let active (organizationId : Option Uuid) := rules.find? fun rule =>
    rule.operation = operation && rule.currency = currency &&
      rule.organizationId = organizationId && rule.supersededAt.isNone
  match owner with
  | .organization id => (active (some id)).or (active none)
  | .user _ => active none

/-- A limit that is set is kept to. -/
def assertWithin (limit : Option Int) (value : Int) (detail : Int → String) : Except Err Unit :=
  match limit with
  | some limit =>
    if value > limit then .error (.app (limitExceededException (detail limit))) else .ok ()
  | none => .ok ()

/-- The limit of one transaction. -/
def checkTransaction (rule : LimitRule) (input : LimitInput) : Except Err Unit :=
  assertWithin rule.maxPerTransaction input.amount fun limit =>
    let money := formatMoney limit input.currency
    s!"The {input.operation.text} limit is {money} per transaction"

/-- The rule has a limit that depends on what has been moved. -/
def readsUsage (rule : LimitRule) : Bool :=
  rule.maxDailyAmount.isSome || rule.maxDailyCount.isSome || rule.maxMonthlyAmount.isSome

/-- What an exceeded amount is told. -/
def amountDetail (input : LimitInput) (used : Int) (period : String) (limit : Int) : String :=
  let money := formatMoney limit input.currency
  let left := formatMoney (if limit - used > 0 then limit - used else 0) input.currency
  s!"This would exceed the {input.operation.text} limit of {money} per {period} ({left} left)"

/-- The limits per 24 hours and per 30 days. -/
def checkUsage (rule : LimitRule) (input : LimitInput) (daily : Usage) (monthlyAmount : Int) :
    Except Err Unit := do
  assertWithin rule.maxDailyCount (daily.count + 1) fun limit =>
    s!"The {input.operation.text} limit is {limit} per 24 hours"
  assertWithin rule.maxDailyAmount (daily.amount + input.amount)
    (amountDetail input daily.amount "24 hours")
  assertWithin rule.maxMonthlyAmount (monthlyAmount + input.amount)
    (amountDetail input monthlyAmount "30 days")

theorem assertWithin_ok_iff {limit : Option Int} {value : Int} {detail : Int → String} :
    assertWithin limit value detail = .ok () ↔ ∀ bound ∈ limit, value ≤ bound := by
  cases limit with
  | none => simp [assertWithin]
  | some bound =>
    simp only [assertWithin, Option.mem_def, Option.some.injEq, forall_eq']
    split_ifs with above
    · simpa using above
    · simpa using above

/-- What a check of the usage establishes. -/
theorem checkUsage_ok_iff {rule : LimitRule} {input : LimitInput} {daily : Usage}
    {monthlyAmount : Int} : checkUsage rule input daily monthlyAmount = .ok () ↔
      (∀ limit ∈ rule.maxDailyCount, daily.count + 1 ≤ limit) ∧
      (∀ limit ∈ rule.maxDailyAmount, daily.amount + input.amount ≤ limit) ∧
      ∀ limit ∈ rule.maxMonthlyAmount, monthlyAmount + input.amount ≤ limit := by
  have bind_ok : ∀ {first second : Except Err Unit},
      (first >>= fun _ => second) = .ok () ↔ first = .ok () ∧ second = .ok () := by
    intro first second
    cases first <;> simp [bind, Except.bind]
  unfold checkUsage
  rw [bind_ok, bind_ok, assertWithin_ok_iff, assertWithin_ok_iff, assertWithin_ok_iff]

theorem checkTransaction_ok_iff {rule : LimitRule} {input : LimitInput} :
    checkTransaction rule input = .ok () ↔
      ∀ limit ∈ rule.maxPerTransaction, input.amount ≤ limit :=
  assertWithin_ok_iff

end LimitsService

example : formatMoney 150000 "NGN" = "NGN 1,500.00" := by decide +kernel

end Finstack
