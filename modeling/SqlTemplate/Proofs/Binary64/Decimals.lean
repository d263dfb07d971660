import Mathlib.Data.Nat.Log
import SqlTemplate.Proofs.Binary64.Nearest
import SqlTemplate.Proofs.Format.NumberCharacters

/-!
Decimals as floats.

The float of a decimal is the one nearest to its value (`Binary64.isNearest_ofDecimal`). Most are
rounded as fractions; where the order alone decides, no power of ten is computed: from `10 ^ 309` on
the nearest number is infinity, and below `10 ^ (-324)` it is zero.

So the float of a numeral is the one nearest to the number that is written
(`Numeral.isNearest_value`). The last digits of a very large exponent do not count, but this can be
told only if more than 65,000 digits stand before it (`Numeral.ReadInFull`): with fewer, the float
is infinite or zero with those digits and without them.
-/

set_option autoImplicit false

namespace SqlTemplate

namespace Decimal

variable {d : Decimal}

/-! ## The size of a decimal -/

theorem ten_zpow_pos (k : Int) : (0 : ℚ) < 10 ^ k := zpow_pos (by norm_num) k

/-- The number of digits is a logarithm. -/
theorem digitCount_eq_log (n : Nat) : digitCount n = Nat.log 10 n + 1 := by
  induction n using Nat.strongRecOn with
  | _ n ih =>
    rw [digitCount]
    by_cases hn : n < 10
    · rw [digits_of_lt_ten hn, Nat.log_of_lt hn]
      rfl
    · rw [digits_of_ten_le (not_lt.mp hn), List.length_append, List.length_singleton,
        ← digitCount, ih (n / 10) (by omega), Nat.log_div_base]
      have := Nat.log_pos (b := 10) (by decide) (not_lt.mp hn)
      omega

/-- The rational that a decimal stands for. -/
def value (d : Decimal) : ℚ :=
  d.coefficient * 10 ^ d.exponent

/-- The value of a decimal is its fraction. -/
theorem value_eq_fraction (d : Decimal) : d.value = d.fraction.1 / d.fraction.2 := by
  rw [value, fraction, Nat.pow_eq, Nat.pow_eq]
  push_cast
  rw [mul_div_assoc, ← zpow_natCast, ← zpow_natCast, ← zpow_sub₀ (by norm_num)]
  congr 2
  omega

theorem fraction_pos (d : Decimal) : 0 < d.fraction.2 := by
  rw [fraction, Nat.pow_eq]
  exact Nat.pow_pos (by decide)

/-- A decimal of order `k` is at least `10 ^ k`. -/
theorem le_value (h : d.coefficient ≠ 0) : (10 : ℚ) ^ d.order ≤ d.value := by
  have hdigits : ((10 ^ Nat.log 10 d.coefficient : Nat) : ℚ) ≤ d.coefficient :=
    Nat.cast_le.mpr (Nat.pow_log_le_self 10 h)
  have horder : d.order = (Nat.log 10 d.coefficient : Int) + d.exponent := by
    rw [order, digitCount_eq_log]
    omega
  rw [horder, zpow_add₀ (by norm_num), zpow_natCast, value]
  push_cast at hdigits
  exact mul_le_mul_of_nonneg_right hdigits (ten_zpow_pos _).le

/-- A decimal of order `k` is below `10 ^ (k + 1)`. -/
theorem value_lt (d : Decimal) : d.value < (10 : ℚ) ^ (d.order + 1) := by
  have hdigits : (d.coefficient : ℚ) < ((10 ^ (Nat.log 10 d.coefficient + 1) : Nat) : ℚ) :=
    Nat.cast_lt.mpr (Nat.lt_pow_succ_log_self (by decide) _)
  have horder : d.order + 1 = ((Nat.log 10 d.coefficient + 1 : Nat) : Int) + d.exponent := by
    rw [order, digitCount_eq_log]
    omega
  rw [horder, zpow_add₀ (by norm_num), zpow_natCast, value]
  push_cast at hdigits
  exact mul_lt_mul_of_pos_right hdigits (ten_zpow_pos _)

theorem value_nonneg (d : Decimal) : 0 ≤ d.value :=
  mul_nonneg (Nat.cast_nonneg _) (ten_zpow_pos _).le

end Decimal

namespace Binary64

/-! ## The float of a decimal -/

variable {q : ℚ}

theorem two_mul_one_le : 2 * one ≤ 10 ^ 324 := by decide +kernel

theorem two_pow_1024_le : 2 ^ 1024 ≤ 10 ^ 309 := by decide +kernel

/-- The number `10 ^ (-324)` is less than half a unit. -/
theorem ten_zpow_mul_one_le : (10 : ℚ) ^ (-324 : Int) * one ≤ 1 / 2 := by
  have hunits : ((2 * one : Nat) : ℚ) ≤ (10 ^ 324 : Nat) := Nat.cast_le.mpr two_mul_one_le
  rw [Nat.cast_mul, Nat.cast_pow, Nat.cast_ofNat, Nat.cast_ofNat] at hunits
  rw [zpow_neg, inv_mul_le_iff₀ (Decimal.ten_zpow_pos _), mul_one_div, le_div_iff₀ two_pos,
    mul_comm]
  exact hunits

/-- The number `10 ^ 309` is beyond all floats. -/
theorem two_pow_1024_le_ten_zpow : (2 : ℚ) ^ 1024 ≤ 10 ^ (309 : Int) := by
  have hpower : ((2 ^ 1024 : Nat) : ℚ) ≤ (10 ^ 309 : Nat) := Nat.cast_le.mpr two_pow_1024_le
  rwa [Nat.cast_pow, Nat.cast_pow, Nat.cast_ofNat, Nat.cast_ofNat] at hpower

/-- What is less than half a unit is rounded to zero. -/
theorem isNearest_zero (negative : Bool) (hnonneg : 0 ≤ q) (hq : q * one ≤ 1 / 2) :
    IsNearest (signed negative q) (ofMagnitude negative 0) := by
  have hzero := nearestMagnitude_zero (mul_nonneg hnonneg cast_one_pos.le) hq
  have hnearest := hzero.isNearest negative (mul_nonneg hnonneg cast_one_pos.le)
  rwa [mul_div_assoc, div_self cast_one_pos.ne', mul_one] at hnearest

/-- Powers of two reach infinity from `2 ^ 1024` on. -/
theorem unitsOf_infinityMagnitude_le_mul_one {j : Nat} (hj : 1024 ≤ j) :
    unitsOf infinityMagnitude ≤ 2 ^ j * one := by
  have hplaces : 52 + (j + 1022) = j + unitPlaces := by
    rw [unitPlaces]
    omega
  have hle := unitsOf_infinityMagnitude_le (by omega : 2046 ≤ j + 1022)
  rwa [binade_eq, ← Nat.pow_add, hplaces, Nat.pow_add, ← one_eq] at hle

/-- What is `2 ^ 1024` or more is rounded to infinity. -/
theorem isNearest_infinity (negative : Bool) (hnonneg : 0 ≤ q) (hq : 2 ^ 1024 ≤ q) :
    IsNearest (signed negative q) (ofMagnitude negative infinityMagnitude) := by
  have hunits : (unitsOf infinityMagnitude : ℚ) ≤ q * one := by
    have hle : (unitsOf infinityMagnitude : ℚ) ≤ (2 ^ 1024 * one : Nat) :=
      Nat.cast_le.mpr (unitsOf_infinityMagnitude_le_mul_one (Nat.le_refl 1024))
    rw [Nat.cast_mul, Nat.cast_pow, Nat.cast_ofNat] at hle
    exact hle.trans (mul_le_mul_of_nonneg_right hq cast_one_pos.le)
  have hnearest := (nearestMagnitude_infinity hunits).isNearest negative
    (mul_nonneg hnonneg cast_one_pos.le)
  rwa [mul_div_assoc, div_self cast_one_pos.ne', mul_one] at hnearest

/-- A decimal far below all floats is rounded to zero. -/
theorem ofDecimal_of_order_lt {negative : Bool} {d : Decimal}
    (h : d.coefficient = 0 ∨ d.order < -324) : ofDecimal negative d = ofMagnitude negative 0 := by
  rw [ofDecimal, if_pos h]

/-- A decimal far beyond all floats is rounded to infinity. -/
theorem ofDecimal_of_le_order {negative : Bool} {d : Decimal} (hne : d.coefficient ≠ 0)
    (h : 309 ≤ d.order) : ofDecimal negative d = ofMagnitude negative infinityMagnitude := by
  rw [ofDecimal, if_neg (not_or.mpr ⟨hne, by omega⟩), if_pos h]

/-- **A decimal is rounded to the nearest number,** whatever its order. -/
theorem isNearest_ofDecimal (negative : Bool) (d : Decimal) :
    IsNearest (signed negative d.value) (ofDecimal negative d) := by
  by_cases hsmall : d.coefficient = 0 ∨ d.order < -324
  · rw [ofDecimal_of_order_lt hsmall]
    refine isNearest_zero negative d.value_nonneg ?_
    -- Below the least power of ten the value is less than half a unit, so zero is nearest.
    rcases hsmall with hzero | horder
    · rw [Decimal.value, hzero, Nat.cast_zero, zero_mul, zero_mul]
      norm_num
    · calc d.value * one ≤ 10 ^ (-324 : Int) * one := by
            refine mul_le_mul_of_nonneg_right (d.value_lt.le.trans ?_) cast_one_pos.le
            exact zpow_le_zpow_right₀ (by norm_num) (by omega)
        _ ≤ 1 / 2 := ten_zpow_mul_one_le
  by_cases hlarge : 309 ≤ d.order
  · rw [not_or] at hsmall
    rw [ofDecimal_of_le_order hsmall.1 hlarge]
    refine isNearest_infinity negative d.value_nonneg ?_
    calc (2 : ℚ) ^ 1024 ≤ 10 ^ (309 : Int) := two_pow_1024_le_ten_zpow
      _ ≤ 10 ^ d.order := zpow_le_zpow_right₀ (by norm_num) hlarge
      _ ≤ d.value := Decimal.le_value hsmall.1
  -- Between the two orders the decimal is rounded as a fraction.
  · rw [ofDecimal, if_neg hsmall, if_neg hlarge, Decimal.value_eq_fraction]
    exact isNearest_ofFraction negative d.fraction.1 d.fraction_pos

end Binary64

/-! ## The float of a numeral -/

namespace Decimal

/-- A number of so many digits is below the power of ten. -/
theorem ofDigits_lt (run : List Char) (h : ∀ c ∈ run, c.isDigit = true) :
    ofDigits run < 10 ^ run.length := by
  induction run using List.reverseRecOn with
  | nil => exact Nat.one_pos
  | append_singleton run c ih =>
    rw [List.forall_mem_append, List.forall_mem_singleton] at h
    have hc := digitValue_le_nine h.2
    have hrun := ih h.1
    rw [ofDigits_append_singleton, List.length_append, List.length_singleton, Nat.pow_succ]
    omega

/-- Zeros behind a run of digits are so many factors of ten. -/
theorem ofDigits_append_zeros (run : List Char) (k : Nat) :
    ofDigits (run ++ List.replicate k '0') = ofDigits run * 10 ^ k := by
  induction k with
  | zero => rw [List.replicate_zero, List.append_nil, Nat.pow_zero, Nat.mul_one]
  | succ k ih =>
    have hzero : digitValue '0' = 0 := rfl
    rw [List.replicate_succ', ← List.append_assoc, ofDigits_append_singleton, ih, hzero]
    ring

end Decimal

namespace Numeral

variable {n : Numeral}

/-- The number without its sign, with all of its exponent. -/
def size (n : Numeral) : Decimal :=
  ⟨Decimal.ofDigits (n.whole ++ n.fractionDigits), n.exponent.getD 0 - n.fractionDigits.length⟩

/-- The rational that is written. -/
def value (n : Numeral) : ℚ :=
  Binary64.signed n.negative n.size.value

/-- The rational that is written, but for the digits of the exponent that do not count. -/
def countedValue (n : Numeral) : ℚ :=
  Binary64.signed n.negative n.decimal.value

/-- All of the exponent counts, or the float does not depend on what is cut off. -/
def ReadInFull (n : Numeral) : Prop :=
  (n.exponent.getD 0).natAbs < exponentLimit ∨ (n.whole ++ n.fractionDigits).length ≤ 65000

instance (n : Numeral) : Decidable n.ReadInFull :=
  inferInstanceAs (Decidable ((n.exponent.getD 0).natAbs < exponentLimit
    ∨ (n.whole ++ n.fractionDigits).length ≤ 65000))

/-- A numeral without point and exponent is the integer that it denotes. -/
theorem value_of_isIntegral (h : n.isIntegral = true) : n.value = n.wholeInt := by
  rw [isIntegral, Bool.and_eq_true, Option.isNone_iff_eq_none, Option.isNone_iff_eq_none] at h
  have hsize : n.size = ⟨Decimal.ofDigits n.whole, 0⟩ := by
    rw [size, fractionDigits, h.1, h.2, Option.getD_none, List.append_nil]
    rfl
  rw [value, hsize, Decimal.value, zpow_zero, mul_one, wholeInt, Binary64.signed]
  split
  · push_cast
    rfl
  · rfl

/-- Zeros behind the point and the exponent zero add nothing. -/
theorem value_of_zeros {k : Nat} (hfraction : n.fractionDigits = List.replicate k '0')
    (hpower : n.exponent.getD 0 = 0) :
    n.value = Binary64.signed n.negative (Decimal.ofDigits n.whole) := by
  have hten : (10 : ℚ) ^ k ≠ 0 := pow_ne_zero k (by norm_num)
  rw [value, size, hfraction, hpower, List.length_replicate, Decimal.value,
    Decimal.ofDigits_append_zeros]
  dsimp only
  rw [zero_sub, zpow_neg, zpow_natCast]
  push_cast
  rw [mul_inv_cancel_right₀ hten]

/-- Below the limit on exponents the decimal is the size. -/
theorem decimal_eq_size (h : (n.exponent.getD 0).natAbs < exponentLimit) : n.decimal = n.size := by
  have hcounted : n.countedExponent = n.exponent.getD 0 := by
    rw [countedExponent, cutExponent_of_lt h]
    split <;> omega
  rw [decimal, size, hcounted]

/-- What is left of an exponent that is cut is still far beyond the range of floats. -/
theorem le_cutExponent {size : Nat} (h : exponentLimit ≤ size) : 65536 ≤ cutExponent size := by
  induction size using Nat.strongRecOn with
  | _ size ih =>
    rw [exponentLimit] at h
    rw [cutExponent, exponentLimit, if_neg (not_lt.mpr h)]
    by_cases hcut : exponentLimit ≤ size / 10
    · exact ih (size / 10) (by omega) hcut
    · rw [cutExponent_of_lt (not_le.mp hcut)]
      omega

/-- The order of a number is the power of ten behind its digits and the places that they take. -/
theorem order_bounds {run : List Char} (hrun : ∀ c ∈ run, c.isDigit = true)
    (hne : Decimal.ofDigits run ≠ 0) (exponent : Int) :
    exponent ≤ Decimal.order ⟨Decimal.ofDigits run, exponent⟩
      ∧ Decimal.order ⟨Decimal.ofDigits run, exponent⟩ < run.length + exponent := by
  have hlog : Nat.log 10 (Decimal.ofDigits run) < run.length :=
    Nat.log_lt_of_lt_pow hne (Decimal.ofDigits_lt run hrun)
  rw [Decimal.order, Decimal.digitCount_eq_log]
  dsimp only
  constructor <;> omega

/-- **What is cut off an exponent does not change the float,** unless there are more than 65,000
digits before it. -/
theorem ofDecimal_decimal (hdigits : ∀ c ∈ n.whole ++ n.fractionDigits, c.isDigit = true)
    (h : n.ReadInFull) (negative : Bool) :
    Binary64.ofDecimal negative n.decimal = Binary64.ofDecimal negative n.size := by
  by_cases hlimit : (n.exponent.getD 0).natAbs < exponentLimit
  · rw [decimal_eq_size hlimit]
  have hlength := h.resolve_left hlimit
  have hfraction : n.fractionDigits.length ≤ 65000 := by
    rw [List.length_append] at hlength
    omega
  have hcut := le_cutExponent (not_lt.mp hlimit)
  by_cases hzero : Decimal.ofDigits (n.whole ++ n.fractionDigits) = 0
  · rw [Binary64.ofDecimal_of_order_lt (Or.inl hzero),
      Binary64.ofDecimal_of_order_lt (Or.inl hzero)]
  -- The cut exponent and the whole one both lie so far out that the digits do not matter: the two
  -- decimals are rounded to zero alike, or to infinity alike.
  have hcounted := order_bounds hdigits hzero (n.countedExponent - n.fractionDigits.length)
  have hfull := order_bounds hdigits hzero (n.exponent.getD 0 - n.fractionDigits.length)
  rw [exponentLimit] at hlimit
  rw [decimal, size]
  rw [countedExponent] at hcounted ⊢
  by_cases hsign : n.exponent.getD 0 < 0
  · rw [if_pos hsign] at hcounted ⊢
    rw [Binary64.ofDecimal_of_order_lt (Or.inr (by omega)),
      Binary64.ofDecimal_of_order_lt (Or.inr (by omega))]
  · rw [if_neg hsign] at hcounted ⊢
    rw [Binary64.ofDecimal_of_le_order hzero (by omega),
      Binary64.ofDecimal_of_le_order hzero (by omega)]

/-- **The float of a numeral is nearest to the number that is written.** -/
theorem isNearest_value (hdigits : ∀ c ∈ n.whole ++ n.fractionDigits, c.isDigit = true)
    (h : n.ReadInFull) :
    Binary64.IsNearest n.value (Binary64.ofDecimal n.negative n.decimal) := by
  rw [ofDecimal_decimal hdigits h]
  exact Binary64.isNearest_ofDecimal n.negative n.size

/-- The float of a numeral is nearest to what counts of it. -/
theorem isNearest_countedValue (n : Numeral) :
    Binary64.IsNearest n.countedValue (Binary64.ofDecimal n.negative n.decimal) :=
  Binary64.isNearest_ofDecimal n.negative n.decimal

/-- The float that a numeral is rounded to. The digits of a very large exponent that do not count
are left out. -/
def RoundsTo (n : Numeral) (x : Binary64) : Prop :=
  Binary64.IsNearest (if n.ReadInFull then n.value else n.countedValue) x

/-- **The float of a numeral is what the numeral rounds to.** -/
theorem roundsTo_ofDecimal (hdigits : ∀ c ∈ n.whole ++ n.fractionDigits, c.isDigit = true) :
    n.RoundsTo (Binary64.ofDecimal n.negative n.decimal) := by
  rw [RoundsTo]
  split
  · rename_i hfull
    exact isNearest_value hdigits hfull
  · exact n.isNearest_countedValue

end Numeral

end SqlTemplate
