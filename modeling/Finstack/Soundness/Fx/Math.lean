import Finstack.Foundation.Rounding
import Finstack.Model.Fx.Math
import Mathlib.Order.Bounds.Defs

/-! # Conversions are exact

What the nested integer divisions compute, as exact rationals rounded down; that a fixed target is
bought for the least amount that pays for it; and that nobody gains by converting back or in parts.
-/

namespace Finstack.FxMath

open Foundation

/-! ## What conversions mean -/

/-- Quote units per base unit. -/
def PairRate.value {κ : Type} (rate : PairRate κ) : ℚ := rate.scaled / 10 ^ RATE_DECIMALS

/-- From one of the pair's currencies into the other. -/
def PairRate.Covers {κ : Type} (rate : PairRate κ) (source target : κ) : Prop :=
  source = rate.base ∧ target = rate.quote ∨ source = rate.quote ∧ target = rate.base

def ValidSpread (spreadBps : Int) : Prop := 0 ≤ spreadBps ∧ spreadBps < 10000

/-- What the spread leaves of an amount. -/
def kept (spreadBps : Int) : ℚ := 1 - spreadBps / 10000

variable {κ : Type} [DecidableEq κ]

/-- Target minor units per source minor unit. -/
def midRate (minorUnits : κ → Nat) (rate : PairRate κ) (source target : κ) : ℚ :=
  (if source = rate.base ∧ target = rate.quote then rate.value else rate.value⁻¹) *
    10 ^ minorUnits target / 10 ^ minorUnits source

variable [ToString κ] {minorUnits : κ → Nat} {rate : PairRate κ} {source target : κ}
  {sourceAmount targetAmount spreadBps : Int}

/-- An amount converted at the mid rate, and after the spread. -/
def conversion (mid : ℚ) (spreadBps sourceAmount : Int) : Conversion where
  sourceAmount := sourceAmount
  targetAmount := roundDown (mid * kept spreadBps) sourceAmount
  grossTargetAmount := roundDown mid sourceAmount
  spreadAmount := roundDown mid sourceAmount - roundDown (mid * kept spreadBps) sourceAmount

theorem ValidSpread.kept_pos (valid : ValidSpread spreadBps) : 0 < kept spreadBps := by
  have : (spreadBps : ℚ) < 10000 := by exact_mod_cast valid.2
  unfold kept
  linarith

theorem ValidSpread.kept_le_one (valid : ValidSpread spreadBps) : kept spreadBps ≤ 1 := by
  have : (0 : ℚ) ≤ spreadBps := by exact_mod_cast valid.1
  unfold kept
  linarith

variable (minorUnits source target) in
omit [ToString κ] in
theorem midRate_pos (positive : 0 < rate.scaled) : 0 < midRate minorUnits rate source target := by
  have scaled : (0 : ℚ) < rate.scaled := by exact_mod_cast positive
  have value : 0 < rate.value := div_pos scaled (by positivity)
  have direction : 0 < if source = rate.base ∧ target = rate.quote then rate.value
      else rate.value⁻¹ := by
    split_ifs
    · exact value
    · exact inv_pos.mpr value
  unfold midRate
  positivity

variable (minorUnits) in
omit [ToString κ] in
/-- Between two currencies, one direction undoes the other. -/
theorem midRate_mul_midRate (positive : 0 < rate.scaled) (covers : rate.Covers source target)
    (distinct : source ≠ target) :
    midRate minorUnits rate source target * midRate minorUnits rate target source = 1 := by
  have scaled : (0 : ℚ) < rate.scaled := by exact_mod_cast positive
  have value : rate.value ≠ 0 := (div_pos scaled (by positivity)).ne'
  rcases covers with ⟨rfl, rfl⟩ | ⟨rfl, rfl⟩
  · rw [midRate, midRate, if_pos ⟨rfl, rfl⟩, if_neg fun same => distinct same.1.symm]
    field_simp
  · rw [midRate, midRate, if_neg fun same => distinct same.1, if_pos ⟨rfl, rfl⟩]
    field_simp

/-! ## What the divisions compute -/

theorem divide_ok {a b : Int} (positive : 0 < b) : divide a b = .ok (a.tdiv b) :=
  if_neg positive.ne'

theorem validateSpread_ok (valid : ValidSpread spreadBps) :
    validateSpread spreadBps = .ok spreadBps := by
  obtain ⟨low, high⟩ := valid
  rw [validateSpread, if_neg (by omega)]

variable (minorUnits) in
/-- The fraction is the mid rate. -/
theorem factor_ok (positive : 0 < rate.scaled) (covers : rate.Covers source target) :
    ∃ n d : Int, factor minorUnits rate source target = .ok (n, d) ∧ 0 < n ∧ 0 < d ∧
      (n : ℚ) / d = midRate minorUnits rate source target := by
  have scaled : (0 : ℚ) < rate.scaled := by exact_mod_cast positive
  have scale : 0 < RATE_SCALE := by decide
  unfold factor midRate PairRate.value
  by_cases forward : source = rate.base ∧ target = rate.quote
  · rw [if_pos forward, if_pos forward]
    refine ⟨_, _, rfl, by positivity, by positivity, ?_⟩
    rw [RATE_SCALE]
    push_cast
    field_simp
  · have backward := covers.resolve_left forward
    rw [if_neg forward, if_neg forward, if_pos backward]
    refine ⟨_, _, rfl, by positivity, by positivity, ?_⟩
    rw [RATE_SCALE]
    push_cast
    field_simp

theorem gross_eq {n d : Int} (numerator : 0 < n) (denominator : 0 < d) (nonneg : 0 ≤ sourceAmount) :
    (sourceAmount * n).tdiv d = roundDown ((n : ℚ) / d) sourceAmount := by
  rw [tdiv_eq_floor (by positivity) denominator.le, roundDown]
  push_cast
  rw [mul_div_assoc]

theorem credit_eq {n d : Int} (numerator : 0 < n) (denominator : 0 < d)
    (nonneg : 0 ≤ sourceAmount) (valid : ValidSpread spreadBps) :
    (sourceAmount * n * (BPS - spreadBps)).tdiv (d * BPS) =
      roundDown ((n : ℚ) / d * kept spreadBps) sourceAmount := by
  have remainder : 0 ≤ BPS - spreadBps := by
    have := valid.2
    unfold BPS
    omega
  have bps : 0 ≤ BPS := by decide
  have divisor : (d : ℚ) ≠ 0 := by exact_mod_cast denominator.ne'
  rw [tdiv_eq_floor (by positivity) (by positivity), roundDown]
  congr 1
  unfold kept BPS
  push_cast
  field_simp

variable (minorUnits) in
theorem convertFromSource_ok (positive : 0 < rate.scaled) (covers : rate.Covers source target)
    (valid : ValidSpread spreadBps) (amount : 0 < sourceAmount) :
    convertFromSource minorUnits rate source target sourceAmount spreadBps =
      .ok (conversion (midRate minorUnits rate source target) spreadBps sourceAmount) := by
  obtain ⟨n, d, factors, numerator, denominator, mid⟩ :=
    factor_ok minorUnits positive covers
  have bps : 0 < BPS := by decide
  unfold convertFromSource
  rw [validateSpread_ok valid, factors]
  simp only [bind, Except.bind, pure, Except.pure]
  rw [if_neg (by omega), divide_ok denominator, divide_ok (by positivity)]
  rw [gross_eq numerator denominator amount.le, credit_eq numerator denominator amount.le valid, mid]
  rfl

theorem convertFromSource_pos {c : Conversion}
    (converted : convertFromSource minorUnits rate source target sourceAmount spreadBps = .ok c) :
    0 < sourceAmount := by
  by_contra amount
  unfold convertFromSource at converted
  cases spread : validateSpread spreadBps with
  | error e =>
    rw [spread] at converted
    cases converted
  | ok checked =>
    rw [spread] at converted
    simp only [bind, Except.bind] at converted
    rw [if_pos (by omega)] at converted
    cases converted

/-- The charge is the least that makes up for the target after the spread. -/
theorem charge_le_iff {n d k : Int} (numerator : 0 < n) (denominator : 0 < d)
    (valid : ValidSpread spreadBps) (target_pos : 0 < targetAmount) :
    (targetAmount * d * BPS + n * (BPS - spreadBps) - 1).tdiv (n * (BPS - spreadBps)) ≤ k ↔
      targetAmount ≤ roundDown ((n : ℚ) / d * kept spreadBps) k := by
  have bps : 0 < BPS := by decide
  have remainder : 0 < BPS - spreadBps := by
    have := valid.2
    unfold BPS
    omega
  have upper : (0 : ℚ) < n := by exact_mod_cast numerator
  have lower : (0 : ℚ) < d := by exact_mod_cast denominator
  have left : 0 < kept spreadBps := valid.kept_pos
  have share : ((BPS - spreadBps : Int) : ℚ) = BPS * kept spreadBps := by
    unfold kept BPS
    push_cast
    ring
  have unit : (0 : ℚ) < BPS := by exact_mod_cast bps
  rw [add_sub_one_tdiv_le_iff (by positivity) (by positivity), le_roundDown_iff (by positivity)]
  calc
    targetAmount * d * BPS ≤ k * (n * (BPS - spreadBps))
      ↔ ((targetAmount * d * BPS : Int) : ℚ) ≤ (k * (n * (BPS - spreadBps)) : Int) :=
        Int.cast_le.symm
    _ ↔ (targetAmount * d : ℚ) * BPS ≤ (k * (n * kept spreadBps)) * BPS := by
        rw [Int.cast_mul, Int.cast_mul, Int.cast_mul, Int.cast_mul, share]
        ring_nf
    _ ↔ (targetAmount * d : ℚ) ≤ k * (n * kept spreadBps) := mul_le_mul_iff_left₀ unit
    _ ↔ (targetAmount : ℚ) / (n / d * kept spreadBps) ≤ k := by
        rw [div_le_iff₀ (by positivity), div_mul_eq_mul_div, mul_div_assoc', le_div_iff₀ lower]

variable (minorUnits) in
theorem convertToTarget_ok (positive : 0 < rate.scaled) (covers : rate.Covers source target)
    (valid : ValidSpread spreadBps) (amount : 0 < targetAmount) :
    ∃ charge, (∀ k, charge ≤ k ↔
        targetAmount ≤ roundDown (midRate minorUnits rate source target * kept spreadBps) k) ∧
      convertToTarget minorUnits rate source target targetAmount spreadBps =
        convertFromSource minorUnits rate source target charge spreadBps := by
  obtain ⟨n, d, factors, numerator, denominator, mid⟩ :=
    factor_ok minorUnits positive covers
  have remainder : 0 < BPS - spreadBps := by
    have := valid.2
    unfold BPS
    omega
  rw [← mid]
  refine ⟨_, fun k => charge_le_iff numerator denominator valid amount, ?_⟩
  unfold convertToTarget ceilDiv
  rw [validateSpread_ok valid, factors]
  simp only [bind, Except.bind]
  rw [if_neg (by omega), divide_ok (by positivity)]

theorem mapM_ok {A B : Type} {f : A → Except Err B} {g : A → B} {xs : List A}
    (each : ∀ x ∈ xs, f x = .ok (g x)) : xs.mapM f = .ok (xs.map g) := by
  induction xs with
  | nil => rfl
  | cons x xs ih =>
    rw [List.mapM_cons, each x List.mem_cons_self,
      ih fun y member => each y (List.mem_cons_of_mem _ member)]
    rfl

/-! ## Main results -/

/-- Conversions from a fixed amount are the exact rationals rounded down, and a fixed target is
bought for the least amount that pays for it. -/
theorem conversions_exact (minorUnits : κ → Nat) (rate : PairRate κ) (source target : κ)
    (spreadBps : Int) (positive : 0 < rate.scaled) (covers : rate.Covers source target)
    (valid : ValidSpread spreadBps) :
    (∀ sourceAmount, 0 < sourceAmount → ∃ c,
      convertFromSource minorUnits rate source target sourceAmount spreadBps = .ok c ∧
        c.sourceAmount = sourceAmount ∧
        c.grossTargetAmount = ⌊(sourceAmount : ℚ) * midRate minorUnits rate source target⌋ ∧
        c.targetAmount =
          ⌊(sourceAmount : ℚ) * midRate minorUnits rate source target * (1 - spreadBps / 10000)⌋ ∧
        c.spreadAmount = c.grossTargetAmount - c.targetAmount ∧
        0 ≤ c.targetAmount ∧ c.targetAmount ≤ c.grossTargetAmount) ∧
    (∀ less more c d, less ≤ more →
      convertFromSource minorUnits rate source target less spreadBps = .ok c →
      convertFromSource minorUnits rate source target more spreadBps = .ok d →
        c.grossTargetAmount ≤ d.grossTargetAmount ∧ c.targetAmount ≤ d.targetAmount) ∧
    (∀ targetAmount, 0 < targetAmount → ∃ c,
      convertToTarget minorUnits rate source target targetAmount spreadBps = .ok c ∧
        convertFromSource minorUnits rate source target c.sourceAmount spreadBps = .ok c ∧
        IsLeast {sourceAmount | 0 < sourceAmount ∧ ∃ d,
          convertFromSource minorUnits rate source target sourceAmount spreadBps = .ok d ∧
            targetAmount ≤ d.targetAmount} c.sourceAmount) := by
  have mid := midRate_pos minorUnits source target positive
  have credited : 0 < midRate minorUnits rate source target * kept spreadBps :=
    mul_pos mid valid.kept_pos
  have worse : midRate minorUnits rate source target * kept spreadBps ≤
      midRate minorUnits rate source target := mul_le_of_le_one_right mid.le valid.kept_le_one
  refine ⟨?_, ?_, ?_⟩
  · intro sourceAmount amount
    refine ⟨_, convertFromSource_ok minorUnits positive covers valid amount, rfl, rfl, ?_, rfl, ?_, ?_⟩
    · rw [mul_assoc]
      rfl
    · exact roundDown_nonneg credited.le amount.le
    · exact roundDown_le_of_le worse amount.le
  · intro less more c d le first second
    have amount := convertFromSource_pos first
    rw [convertFromSource_ok minorUnits positive covers valid amount] at first
    rw [convertFromSource_ok minorUnits positive covers valid (by omega)] at second
    cases first
    cases second
    exact ⟨roundDown_mono mid.le le, roundDown_mono credited.le le⟩
  · intro targetAmount amount
    obtain ⟨charge, least, same⟩ :=
      convertToTarget_ok minorUnits positive covers valid amount
    have pays := (least charge).mp le_rfl
    have charged : 0 < charge := by
      by_contra nothing
      have zero := (least 0).mp (by omega)
      rw [roundDown, Int.cast_zero, zero_mul, Int.floor_zero] at zero
      omega
    have converted := convertFromSource_ok minorUnits positive covers valid charged
    refine ⟨_, same.trans converted, converted, ⟨charged, _, converted, pays⟩, ?_⟩
    rintro other ⟨other_pos, d, otherConverted, paysToo⟩
    rw [convertFromSource_ok minorUnits positive covers valid other_pos] at otherConverted
    cases otherConverted
    exact (least other).mpr paysToo

/-- Nobody gains by converting an amount and the credit back, or by converting it in parts. -/
theorem no_arbitrage (minorUnits : κ → Nat) (rate : PairRate κ) (source target : κ)
    (positive : 0 < rate.scaled) (covers : rate.Covers source target) (distinct : source ≠ target) :
    (∀ amount there back c d, ValidSpread there → ValidSpread back →
      convertFromSource minorUnits rate source target amount there = .ok c →
      convertFromSource minorUnits rate target source c.targetAmount back = .ok d →
        d.targetAmount ≤ amount) ∧
    (∀ parts spreadBps, parts ≠ [] → (∀ part ∈ parts, 0 < part) → ValidSpread spreadBps →
      ∃ credits whole,
        parts.mapM (convertFromSource minorUnits rate source target · spreadBps) = .ok credits ∧
        convertFromSource minorUnits rate source target parts.sum spreadBps = .ok whole ∧
        (credits.map (·.targetAmount)).sum ≤ whole.targetAmount) := by
  have reverse : rate.Covers target source := covers.symm.imp And.symm And.symm
  have inverse := midRate_mul_midRate minorUnits positive covers distinct
  have forth := midRate_pos minorUnits source target positive
  have home := midRate_pos minorUnits target source positive
  refine ⟨?_, ?_⟩
  · intro amount there back c d validThere validBack first second
    have start := convertFromSource_pos first
    rw [convertFromSource_ok minorUnits positive covers validThere start] at first
    cases first
    rw [convertFromSource_ok minorUnits positive reverse validBack (convertFromSource_pos second)] at second
    cases second
    refine roundDown_roundDown_le (mul_pos home validBack.kept_pos).le start.le ?_
    calc
      midRate minorUnits rate source target * kept there *
          (midRate minorUnits rate target source * kept back)
        = kept there * kept back := by rw [mul_mul_mul_comm, inverse, one_mul]
      _ ≤ 1 := mul_le_one₀ validThere.kept_le_one validBack.kept_pos.le validBack.kept_le_one
  · intro parts spreadBps nonempty each valid
    have whole : 0 < parts.sum := by
      obtain ⟨part, rest, rfl⟩ := List.exists_cons_of_ne_nil nonempty
      have tail : 0 ≤ rest.sum :=
        List.sum_nonneg fun other member => (each other (List.mem_cons_of_mem _ member)).le
      rw [List.sum_cons]
      have := each part List.mem_cons_self
      omega
    refine ⟨parts.map (conversion (midRate minorUnits rate source target) spreadBps), _, ?_,
      convertFromSource_ok minorUnits positive covers valid whole, ?_⟩
    · exact mapM_ok fun part member => convertFromSource_ok minorUnits positive covers valid (each part member)
    · rw [List.map_map]
      exact sum_roundDown_le _ parts

/-! ## At work -/

def minorUnitsOf (currency : String) : Nat :=
  ((CURRENCIES.find? fun entry => entry.1 = currency).map (·.2)).getD 0

def usdJpy : PairRate String := ⟨"USD", "JPY", 1505000000000⟩

/-- 1490 yen cost 10.01 dollars after a spread of 1 %. -/
theorem conversions_exact_yen : IsLeast {sourceAmount | 0 < sourceAmount ∧ ∃ d,
    convertFromSource minorUnitsOf usdJpy "USD" "JPY" sourceAmount 100 = .ok d ∧
      1490 ≤ d.targetAmount} 1001 := by
  have exact := conversions_exact minorUnitsOf usdJpy "USD" "JPY" 100 (by decide)
    (.inl ⟨rfl, rfl⟩) ⟨by decide, by decide⟩
  obtain ⟨c, converted, -, least⟩ := exact.2.2 1490 (by decide)
  have same : convertToTarget minorUnitsOf usdJpy "USD" "JPY" 1490 100 =
      .ok ⟨1001, 1491, 1506, 15⟩ := by decide +kernel
  rw [same] at converted
  cases converted
  exact least

/-- A thousand yen come back as 999. -/
theorem no_arbitrage_yen : ∃ c d,
    convertFromSource minorUnitsOf usdJpy "JPY" "USD" 1000 0 = .ok c ∧
      convertFromSource minorUnitsOf usdJpy "USD" "JPY" c.targetAmount 0 = .ok d ∧
        d.targetAmount ≤ 1000 := by
  have none := no_arbitrage minorUnitsOf usdJpy "JPY" "USD" (by decide) (.inr ⟨rfl, rfl⟩) (by decide)
  have there : convertFromSource minorUnitsOf usdJpy "JPY" "USD" 1000 0 = .ok ⟨1000, 664, 664, 0⟩ := by
    decide +kernel
  have back : convertFromSource minorUnitsOf usdJpy "USD" "JPY" 664 0 = .ok ⟨664, 999, 999, 0⟩ := by
    decide +kernel
  exact ⟨_, _, there, back, none.1 1000 0 0 _ _ ⟨by decide, by decide⟩ ⟨by decide, by decide⟩
    there back⟩

end Finstack.FxMath
