import Mathlib.Algebra.Ring.Int.Defs
import Mathlib.Algebra.Ring.Nat
import SqlTemplate.LeadingNumber

/-!
Powers of two under rounding.

A power of two is a float, so rounding never takes a number from above one to below it. Here that is
needed in one direction, for powers from one up to the size that infinity reads as: what is at least
`2 ^ j` is rounded to at least `2 ^ j` (`le_units_ofFraction`), and products of such floats are
bounded by the product of the powers (`le_units_product`). The size `2 ^ 63` is where 64-bit
integers end: a float from there on is clamped to the last one of its sign
(`toInt64_of_two_pow_63_le`).
-/

set_option autoImplicit false

namespace SqlTemplate

/-- Rounding does not go below the quotient. -/
theorem div_le_roundHalfEven (n d : Nat) : n / d ≤ roundHalfEven n d := by
  rw [roundHalfEven]
  split
  · exact Nat.le_refl _
  split
  · exact Nat.le_succ _
  split
  · exact Nat.le_refl _
  · exact Nat.le_succ _

namespace Binary64

theorem binade_eq : binade = 2 ^ 52 := rfl

/-- How many binary places a unit lies behind one. -/
def unitPlaces : Nat := 1074

theorem one_eq : one = 2 ^ unitPlaces := by
  unfold one unitPlaces
  generalize 1074 = places
  exact Nat.pow_eq

theorem one_pos : 0 < one := by
  rw [one_eq]
  exact Nat.two_pow_pos unitPlaces

/-! ## Sign and magnitude -/

variable {negative : Bool} {m j : Nat} {x y : Binary64}

theorem bits_ofMagnitude (negative : Bool) (h : m < signWeight) :
    (ofMagnitude negative m).bits.toNat = if negative then signWeight + m else m := by
  have hweight : signWeight = 2 ^ 63 := rfl
  rw [ofMagnitude, UInt64.toNat_ofNat_of_lt']
  rw [UInt64.size]
  split <;> omega

theorem magnitude_ofMagnitude (negative : Bool) (h : m < signWeight) :
    (ofMagnitude negative m).magnitude = m := by
  rw [magnitude, bits_ofMagnitude negative h]
  split
  · rw [Nat.add_mod_left, Nat.mod_eq_of_lt h]
  · exact Nat.mod_eq_of_lt h

theorem isNegative_ofMagnitude (negative : Bool) (h : m < signWeight) :
    (ofMagnitude negative m).isNegative = negative := by
  rw [isNegative, bits_ofMagnitude negative h]
  cases negative with
  | false => exact decide_eq_false (by rw [if_neg Bool.false_ne_true]; omega)
  | true => exact decide_eq_true (by rw [if_pos rfl]; omega)

/-- A magnitude leaves the bit of the sign alone. -/
theorem magnitude_lt_signWeight (x : Binary64) : x.magnitude < signWeight :=
  Nat.mod_lt _ (by decide)

theorem infinityMagnitude_lt_signWeight : infinityMagnitude < signWeight := by decide

/-! ## Rounding -/

/-- From the magnitude of `2 ^ j` on, magnitudes stand for `2 ^ j` or more. -/
theorem le_units_of_le_magnitude (h : (1023 + j) * binade ≤ x.magnitude) :
    2 ^ j * one ≤ x.units := by
  have hquotient : 1023 + j ≤ x.magnitude / binade :=
    (Nat.le_div_iff_mul_le (by decide : 0 < binade)).mpr h
  have hstep : 1022 + j ≤ step x.magnitude := by
    rw [step]
    omega
  -- One binade of the magnitude is no step, so a whole binade of steps is left.
  have hsignificand : 2 ^ 52 ≤ significand x.magnitude := by
    have hsplit := Nat.div_mul_le_self x.magnitude binade
    have hbelow : step x.magnitude * binade + binade = x.magnitude / binade * binade := by
      rw [step, ← Nat.succ_mul, Nat.succ_eq_add_one, Nat.sub_add_cancel (by omega)]
    rw [significand, ← binade_eq]
    omega
  calc 2 ^ j * one = 2 ^ 52 * 2 ^ (1022 + j) := by
        rw [one_eq, ← Nat.pow_add, ← Nat.pow_add, unitPlaces]
        congr 1
        omega
    _ ≤ x.units := Nat.mul_le_mul hsignificand (Nat.pow_le_pow_right (by decide) hstep)

/-- A fraction of `2 ^ j` or more has as many binary places. -/
theorem le_log2_scaled {numerator denominator : Nat} (hpos : 0 < denominator)
    (h : 2 ^ j * denominator ≤ numerator) :
    j + unitPlaces ≤ (numerator * one / denominator).log2 := by
  have hquotient : 2 ^ (j + unitPlaces) ≤ numerator * one / denominator := by
    rw [Nat.le_div_iff_mul_le hpos, Nat.pow_add, Nat.mul_right_comm, ← one_eq]
    exact Nat.mul_le_mul_right one h
  have hne : numerator * one / denominator ≠ 0 :=
    Nat.ne_of_gt (Nat.lt_of_lt_of_le (Nat.two_pow_pos _) hquotient)
  exact (Nat.le_log2 hne).mpr hquotient

/-- Where the step leaves 53 binary places, the significand is one of 53 places or the next. -/
theorem binade_le_roundHalfEven {scaled denominator places : Nat}
    (hlog : (scaled / denominator).log2 = places + 52) :
    binade ≤ roundHalfEven scaled (denominator * Nat.pow 2 places) := by
  have hne : scaled / denominator ≠ 0 := by
    intro hzero
    rw [hzero, Nat.log2_zero] at hlog
    omega
  refine Nat.le_trans ?_ (div_le_roundHalfEven _ _)
  rw [Nat.pow_eq, ← Nat.div_div_eq_div_mul, Nat.le_div_iff_mul_le (Nat.two_pow_pos places),
    binade_eq, ← Nat.pow_add, Nat.add_comm, ← hlog]
  exact Nat.log2_self_le hne

/-- A fraction of `2 ^ j` or more is rounded to the magnitude of `2 ^ j` or more. -/
theorem le_roundMagnitude {numerator denominator : Nat} (hpos : 0 < denominator)
    (hj : j ≤ 1024) (h : 2 ^ j * denominator ≤ numerator) :
    (1023 + j) * binade ≤ roundMagnitude numerator denominator := by
  have hlog := le_log2_scaled hpos h
  rw [unitPlaces] at hlog
  rw [roundMagnitude]
  generalize numerator * one = scaled at hlog
  obtain ⟨places, hplaces⟩ := Nat.exists_eq_add_of_le' (Nat.le_trans (Nat.le_add_left 52 _) hlog)
  rw [hplaces, Nat.add_sub_cancel, Nat.le_min]
  constructor
  · exact Nat.mul_le_mul_right binade (by omega)
  · have hround := binade_le_roundHalfEven hplaces
    calc (1023 + j) * binade ≤ (places + 1) * binade := Nat.mul_le_mul_right binade (by omega)
      _ = places * binade + binade := Nat.succ_mul places binade
      _ ≤ _ := Nat.add_le_add_left hround _

theorem roundMagnitude_lt_signWeight (numerator denominator : Nat) :
    roundMagnitude numerator denominator < signWeight :=
  Nat.lt_of_le_of_lt (Nat.min_le_left _ _) infinityMagnitude_lt_signWeight

/-- **Rounding does not lead below a power of two,** from one up to `2 ^ 1024`. -/
theorem le_units_ofFraction (negative : Bool) {numerator denominator : Nat}
    (hpos : 0 < denominator) (hj : j ≤ 1024) (h : 2 ^ j * denominator ≤ numerator) :
    2 ^ j * one ≤ (ofFraction negative numerator denominator).units := by
  apply le_units_of_le_magnitude
  rw [ofFraction, magnitude_ofMagnitude negative (roundMagnitude_lt_signWeight _ _)]
  exact le_roundMagnitude hpos hj h

/-- The float of an integer that reaches a power of two reaches it too. -/
theorem le_units_ofInt {n : Int} (hj : j ≤ 1024) (h : 2 ^ j ≤ n.natAbs) :
    2 ^ j * one ≤ (ofInt n).units :=
  le_units_ofFraction _ Nat.one_pos hj (by rwa [Nat.mul_one])

/-- The magnitude of infinity reads as `2 ^ 1024`. -/
theorem le_units_infinity (negative : Bool) (hj : j ≤ 1024) :
    2 ^ j * one ≤ (ofMagnitude negative infinityMagnitude).units := by
  apply le_units_of_le_magnitude
  rw [magnitude_ofMagnitude negative infinityMagnitude_lt_signWeight]
  exact Nat.mul_le_mul_right binade (by omega)

/-- Powers of two that are reached by two floats are reached by the product. -/
theorem le_units_product {i : Nat} (hsum : i + j ≤ 1024) (hx : 2 ^ i * one ≤ x.units)
    (hy : 2 ^ j * one ≤ y.units) : 2 ^ (i + j) * one ≤ (x.product y).units := by
  refine le_units_ofFraction false (Nat.mul_pos one_pos one_pos) hsum ?_
  calc 2 ^ (i + j) * (one * one) = 2 ^ i * one * (2 ^ j * one) := by
        rw [Nat.pow_add, Nat.mul_mul_mul_comm]
    _ ≤ x.units * y.units := Nat.mul_le_mul hx hy

end Binary64

/-! ## The ends of 64-bit integers -/

theorem toInt_clampToInt64 (n : Int) :
    (clampToInt64 n).toInt = max Int64.minValue.toInt (min Int64.maxValue.toInt n) := by
  have hmin : Int64.minValue.toInt = -2 ^ 63 := by decide
  have hmax : Int64.maxValue.toInt = 2 ^ 63 - 1 := by decide
  rw [clampToInt64, Int64.toInt_ofInt_of_le]
  · omega
  · omega

/-- An integer in range is not changed. -/
theorem clampToInt64_of_mem_range {k : Int} (hmin : Int64.minValue.toInt ≤ k)
    (hmax : k ≤ Int64.maxValue.toInt) : clampToInt64 k = Int64.ofInt k := by
  rw [clampToInt64, Int.min_eq_right hmax, Int.max_eq_right hmin]

/-- Integers above the range are clamped to the same end. -/
theorem clampToInt64_of_le {n k : Int} (hn : 2 ^ 63 ≤ n) (hk : 2 ^ 63 ≤ k) :
    clampToInt64 n = clampToInt64 k := by
  have hmax : Int64.maxValue.toInt = 2 ^ 63 - 1 := by decide
  rw [clampToInt64, clampToInt64, Int.min_eq_left (by omega), Int.min_eq_left (by omega)]

theorem clampToInt64_of_ge {n k : Int} (hn : n ≤ -2 ^ 63) (hk : k ≤ -2 ^ 63) :
    clampToInt64 n = clampToInt64 k := by
  have hmin : Int64.minValue.toInt = -2 ^ 63 := by decide
  rw [clampToInt64, clampToInt64, Int.max_eq_left (by omega), Int.max_eq_left (by omega)]

/-- A float of `2 ^ 63` or more is clamped as any other number of that size and its sign is. -/
theorem Binary64.toInt64_of_two_pow_63_le {x : Binary64} {size : Nat} (hnumber : x.isNaN = false)
    (hx : 2 ^ 63 * one ≤ x.units) (hsize : 2 ^ 63 ≤ size) :
    x.toInt64 = clampToInt64 (if x.isNegative then -(size : Int) else size) := by
  have hquotient : 2 ^ 63 ≤ x.units / one :=
    (Nat.le_div_iff_mul_le one_pos).mpr hx
  rw [toInt64, hnumber, if_neg Bool.false_ne_true, truncate]
  generalize x.units / one = quotient at hquotient
  split
  · exact clampToInt64_of_ge (by omega) (by omega)
  · exact clampToInt64_of_le (by omega) (by omega)

end SqlTemplate
