import SqlTemplate.Proofs.Binary64.Decimals
import SqlTemplate.Proofs.Binary64.RoundingIntervals

/-!
The shortest digits of a number.

The multiples of a power of ten form a grid. `Interval.shortest` goes down from a grid that is too
coarse to meet the interval and stops at the first one that does, which is there because the number
itself lies on a fine enough grid. So no coarser grid meets the interval (`Interval.IsCoarsest`),
and everything about the digits follows from that: the last one is not zero, and a decimal in the
interval with fewer digits would have a power of ten between itself and the result, which lies on a
coarser grid (`IsCoarsest.coefficient_lt`).

For a number this says that its shortest digits are rounded to it (`isNearest_shortest`) and that no
fewer digits are (`shortest_coefficient_lt`).
-/

set_option autoImplicit false

namespace SqlTemplate.Binary64

open Decimal (ten_zpow_pos)

variable {i : Interval} {k : Int} {c j n s : Nat} {d : Decimal} {x : Binary64}

/-- A power of ten times its denominator is its numerator. -/
theorem ten_zpow_mul_pow (k : Int) : (10 : ℚ) ^ k * 10 ^ (-k).toNat = 10 ^ k.toNat := by
  rw [← zpow_natCast, ← zpow_natCast, ← zpow_add₀ (by norm_num)]
  congr 1
  omega

/-! ## Decimals in quarters of a unit -/

/-- A decimal, measured as intervals are. -/
def quarters (d : Decimal) : ℚ :=
  4 * (d.value * one)

theorem quarters_zero (k : Int) : quarters ⟨0, k⟩ = 0 := by
  rw [quarters, Decimal.value, Nat.cast_zero, zero_mul, zero_mul, mul_zero]

/-- Quarters are in the order of values. -/
theorem quarters_le_quarters {d e : Decimal} (h : d.value ≤ e.value) :
    quarters d ≤ quarters e :=
  mul_le_mul_of_nonneg_left (mul_le_mul_of_nonneg_right h cast_one_pos.le) (by norm_num)

namespace Interval

theorem quarter_pos (k : Int) : (0 : ℚ) < quarter k := by
  rw [quarter, Nat.pow_eq]
  exact_mod_cast Nat.pow_pos (by decide)

theorem point_pos (k : Int) : 0 < point k := by
  rw [point, Nat.pow_eq]
  exact Nat.mul_pos (Nat.pow_pos (by decide)) (Nat.mul_pos (by decide) one_pos)

/-- The integers that `holds` compares are the decimal and the ends, times one denominator. -/
theorem cast_mul_point (c : Nat) (k : Int) :
    ((c * point k : Nat) : ℚ) = quarters ⟨c, k⟩ * quarter k := by
  rw [quarters, Decimal.value, point, quarter, Nat.pow_eq, Nat.pow_eq]
  push_cast
  rw [← ten_zpow_mul_pow]
  ring

/-- A comparison of whole numbers is one of quarters. -/
theorem mul_quarter_le_iff : n * quarter k ≤ c * point k ↔ (n : ℚ) ≤ quarters ⟨c, k⟩ := by
  rw [← mul_le_mul_iff_left₀ (quarter_pos k), ← cast_mul_point]
  exact_mod_cast Iff.rfl

theorem mul_point_le_iff : c * point k ≤ n * quarter k ↔ quarters ⟨c, k⟩ ≤ n := by
  rw [← mul_le_mul_iff_left₀ (quarter_pos k), ← cast_mul_point]
  exact_mod_cast Iff.rfl

/-- Zero does not lie in an interval above zero. -/
theorem Contains.coefficient_pos (h : i.Contains (quarters d)) (hlow : 0 < i.low) :
    0 < d.coefficient := by
  have hlow' : (0 : ℚ) < i.low := Nat.cast_pos.mpr hlow
  refine Nat.pos_of_ne_zero fun hzero => ?_
  have hd : d = ⟨0, d.exponent⟩ := by rw [← hzero]
  have hle := h.low_le
  rw [hd, quarters_zero] at hle
  exact absurd hlow' (not_lt.mpr hle)

/-- What is checked of a coefficient is that the interval contains its decimal. -/
theorem holds_iff : i.holds k c = true ↔ i.Contains (quarters ⟨c, k⟩) := by
  rw [holds, Contains]
  split
  · rw [decide_eq_true_eq, mul_quarter_le_iff, mul_point_le_iff]
  · rw [decide_eq_true_eq, ← not_le, ← not_le, mul_point_le_iff, mul_quarter_le_iff, not_le, not_le]

/-! ## One grid -/

/-- Whether a multiple of `10 ^ k` lies in the interval. -/
def Meets (i : Interval) (k : Int) : Prop :=
  ∃ c, i.Contains (quarters ⟨c, k⟩)

/-- Of the two points beside the value, the one that is taken lies in the interval. -/
theorem contains_of_onGrid? (h : i.onGrid? k = some c) : i.Contains (quarters ⟨c, k⟩) := by
  rw [← holds_iff]
  rw [onGrid?] at h
  generalize i.value * quarter k / point k = b at h
  generalize 2 * (i.value * quarter k % point k) = twice at h
  generalize point k = width at h
  -- The point below the value and the one above it: the cases are those of the definition.
  cases hbelow : i.holds k b with
  | true =>
    cases habove : i.holds k (b + 1) with
    | true =>
      simp only [hbelow, habove, Option.some.injEq] at h
      split at h
      · rw [← h]
        exact hbelow
      · rw [← h]
        exact habove
    | false =>
      simp only [hbelow, habove, Option.some.injEq] at h
      rw [← h]
      exact hbelow
  | false =>
    cases habove : i.holds k (b + 1) with
    | true =>
      simp only [hbelow, habove, Option.some.injEq] at h
      rw [← h]
      exact habove
    | false => simp [hbelow, habove] at h

/-- If the interval has a point of the grid, it has one of the two beside its value. -/
theorem exists_onGrid? (hvalue : i.Contains i.value) (h : i.Meets k) :
    ∃ c, i.onGrid? k = some c := by
  obtain ⟨c, hc⟩ := h
  have hpoint := point_pos k
  generalize hfloor : i.value * quarter k / point k = b
  have hfound : i.holds k b = true ∨ i.holds k (b + 1) = true := by
    rw [holds_iff, holds_iff]
    have hmono : ∀ {a e : Nat}, a ≤ e → quarters ⟨a, k⟩ ≤ quarters ⟨e, k⟩ := fun hae =>
      quarters_le_quarters
        (mul_le_mul_of_nonneg_right (Nat.cast_le.mpr hae) (ten_zpow_pos k).le)
    rcases Nat.lt_or_ge b c with hlt | hge
    -- A point above the value: the next one above is not farther away.
    · right
      refine hvalue.between hc ?_ (hmono hlt)
      have hnext : i.value * quarter k < (b + 1) * point k := by
        rw [← Nat.div_lt_iff_lt_mul hpoint, hfloor]
        exact Nat.lt_add_one b
      exact mul_quarter_le_iff.mp hnext.le
    -- A point below it, or the value itself: the last one before the value is not farther away.
    · left
      refine hc.between hvalue (hmono hge) ?_
      have hlast : b * point k ≤ i.value * quarter k := by
        rw [← Nat.le_div_iff_mul_le hpoint, hfloor]
      exact mul_point_le_iff.mp hlast
  rw [onGrid?, hfloor]
  generalize 2 * (i.value * quarter k % point k) = twice
  generalize point k = width
  cases hbelow : i.holds k b with
  | true => cases i.holds k (b + 1) <;> simp
  | false =>
    rw [hbelow] at hfound
    simp [hfound.resolve_left Bool.false_ne_true]

/-- A value that lies on the grid is the point that is taken. -/
theorem onGrid?_value (hvalue : i.Contains i.value) (h : (i.value : ℚ) = quarters ⟨c, k⟩) :
    i.onGrid? k = some c := by
  have hpoint := point_pos k
  have hexact : i.value * quarter k = c * point k := by
    have hcast := cast_mul_point c k
    rw [← h] at hcast
    exact_mod_cast hcast.symm
  have hholds : i.holds k c = true := holds_iff.mpr (h ▸ hvalue)
  rw [onGrid?, hexact, Nat.mul_div_cancel c hpoint, Nat.mul_mod_left, Nat.mul_zero]
  generalize point k = width at hpoint
  cases i.holds k (c + 1) <;> simp [hholds, hpoint]

/-! ## From the top down -/

/-- The interval ends below the next power of ten. -/
theorem high_lt_topOrder (hhigh : 0 < i.high) :
    (i.high : ℚ) < quarters ⟨1, i.topOrder + 1⟩ := by
  have hfour : 0 < 4 * one := Nat.mul_pos (by decide) one_pos
  have hone := cast_one_pos
  have hquarters : ∀ k : Int, quarters ⟨1, k⟩ = (10 : ℚ) ^ k * (4 * one : Nat) := by
    intro k
    rw [quarters, Decimal.value, Nat.cast_one, one_mul]
    push_cast
    ring
  rw [hquarters, topOrder]
  generalize hF : 4 * one = four at hfour
  have hfour' : (0 : ℚ) < four := Nat.cast_pos.mpr hfour
  split
  · rename_i hsmall
    -- The reciprocal of the end has a first digit, and the end is not above its power of ten.
    have hlog : 10 ^ Nat.log 10 (four / i.high) ≤ four / i.high := by
      refine Nat.pow_log_le_self 10 (Nat.ne_of_gt (Nat.div_pos ?_ hhigh))
      exact ((Nat.div_eq_zero_iff_lt hfour).mp hsmall).le
    rw [Nat.le_div_iff_mul_le hhigh] at hlog
    have hlog' : (10 : ℚ) ^ Nat.log 10 (four / i.high) * i.high ≤ four := by exact_mod_cast hlog
    have horder : 1 - ((Nat.log 10 (four / i.high) + 1 : Nat) : Int) + 1
        = 1 - (Nat.log 10 (four / i.high) : Nat) := by omega
    rw [Decimal.digitCount_eq_log, horder, zpow_sub₀ (by norm_num), zpow_natCast, zpow_one,
      div_mul_eq_mul_div, lt_div_iff₀ (by positivity)]
    linarith
  · rename_i hlarge
    -- The end has as many digits before its point as its quotient.
    have hlog := Nat.lt_pow_succ_log_self (b := 10) (by decide) (i.high / four)
    have hlt := (Nat.div_lt_iff_lt_mul hfour).mp hlog
    rw [Decimal.digitCount_eq_log, Int.sub_add_cancel, zpow_natCast]
    exact_mod_cast hlt

/-- No power of ten beyond the top order meets the interval. -/
theorem not_meets_of_topOrder_lt (hlow : 0 < i.low) (hhigh : 0 < i.high) (h : i.topOrder < k) :
    ¬ i.Meets k := by
  rintro ⟨c, hc⟩
  have hone : ((1 : Nat) : ℚ) ≤ c := Nat.cast_le.mpr (hc.coefficient_pos hlow)
  have hpower : quarters ⟨1, i.topOrder + 1⟩ ≤ quarters ⟨c, k⟩ := by
    refine quarters_le_quarters ?_
    have htens : (10 : ℚ) ^ (i.topOrder + 1) ≤ 10 ^ k :=
      zpow_le_zpow_right₀ (by norm_num) (by omega)
    exact mul_le_mul hone htens (ten_zpow_pos _).le (Nat.cast_nonneg c)
  exact absurd (hc.le_high.trans_lt (high_lt_topOrder hhigh)) (not_lt.mpr hpower)

/-- A quarter of a unit is a multiple of `10 ^ (-1076)`. -/
theorem quarters_finest (n : Nat) :
    quarters ⟨n * 5 ^ (unitPlaces + 2), -(unitPlaces + 2 : Nat)⟩ = n := by
  have hfour : (4 : ℚ) * one = 2 ^ (unitPlaces + 2) := by
    rw [one_eq, pow_add]
    push_cast
    ring
  generalize unitPlaces + 2 = places at hfour
  have hten : (10 : ℚ) ^ places = 5 ^ places * 2 ^ places := by
    rw [← mul_pow]
    norm_num
  rw [quarters, Decimal.value, mul_left_comm, hfour, zpow_neg, zpow_natCast, hten]
  push_cast
  field_simp

/-- The finest power of ten meets the interval, as it meets its value. -/
theorem meets_finest (hvalue : i.Contains i.value) : i.Meets (-1076) :=
  ⟨i.value * 5 ^ (unitPlaces + 2), (quarters_finest i.value).symm ▸ hvalue⟩

/-- A decimal that is taken from the coarsest grid that meets the interval. -/
structure IsCoarsest (i : Interval) (d : Decimal) : Prop where
  onGrid : i.onGrid? d.exponent = some d.coefficient
  not_meets : ∀ k, d.exponent < k → ¬ i.Meets k

/-- The search stops at the first grid that meets the interval, if it comes as far down. -/
theorem isCoarsest_search (hvalue : i.Contains i.value) (habove : ∀ l, k < l → ¬ i.Meets l)
    {j : Int} (hj : i.Meets j) (hn : k - j < n) : i.IsCoarsest (i.search n k) := by
  -- The induction is on the powers that are left, and what it carries is that no coarser grid meets
  -- the interval.
  induction n generalizing k with
  | zero =>
    have hjk : j ≤ k := Int.not_lt.mp fun hlt => habove j hlt hj
    omega
  | succ n ih =>
    rw [search]
    split
    · rename_i c hc
      exact ⟨hc, habove⟩
    · rename_i hnone
      have hmiss : ¬ i.Meets k := by
        intro hmeets
        obtain ⟨c, hc⟩ := exists_onGrid? hvalue hmeets
        rw [hnone] at hc
        exact absurd hc (by simp)
      refine ih (fun l hl => ?_) (by omega)
      rcases Int.lt_or_eq_of_le (Int.le_of_sub_one_lt hl) with hlt | rfl
      · exact habove l hlt
      · exact hmiss

/-- The search ends with the coarsest power of ten that meets the interval. -/
theorem isCoarsest_shortest (hlow : 0 < i.low) (hhigh : 0 < i.high) (hvalue : i.Contains i.value) :
    i.IsCoarsest i.shortest := by
  have habove := fun k => not_meets_of_topOrder_lt (k := k) hlow hhigh
  have htop : -1076 ≤ i.topOrder :=
    Int.not_lt.mp fun hlt => habove (-1076) hlt (meets_finest hvalue)
  rw [shortest]
  exact isCoarsest_search hvalue habove (meets_finest hvalue) (by omega)

/-! ## Fewest digits -/

namespace IsCoarsest

/-- The coarsest decimal lies in the interval. -/
theorem contains (h : i.IsCoarsest d) : i.Contains (quarters d) :=
  contains_of_onGrid? h.onGrid

/-- A zero at the end would make the decimal one of the next grid. -/
theorem mod_ten_ne_zero (h : i.IsCoarsest d) : d.coefficient % 10 ≠ 0 := by
  intro hzero
  refine h.not_meets (d.exponent + 1) (by omega) ⟨d.coefficient / 10, ?_⟩
  have htens : (d.coefficient : ℚ) = (d.coefficient / 10 : Nat) * 10 := by
    exact_mod_cast (Nat.div_mul_cancel (Nat.dvd_of_mod_eq_zero hzero)).symm
  have heq : quarters ⟨d.coefficient / 10, d.exponent + 1⟩ = quarters d := by
    rw [quarters, quarters, Decimal.value, Decimal.value, htens, zpow_add₀ (by norm_num), zpow_one]
    dsimp only
    ring
  rw [heq]
  exact h.contains

/-- **No decimal in the interval has fewer digits.** -/
theorem coefficient_lt (hlow : 0 < i.low) (h : i.IsCoarsest d) {e : Decimal}
    (he : i.Contains (quarters e)) (hs : e.coefficient < 10 ^ s) : d.coefficient < 10 ^ s := by
  by_contra hlong
  have hexponent : e.exponent ≤ d.exponent := by
    by_contra hlt
    exact h.not_meets e.exponent (by omega) ⟨e.coefficient, he⟩
  have hshort : (e.coefficient : ℚ) ≤ 10 ^ s := by exact_mod_cast hs.le
  have hlong' : (10 : ℚ) ^ s ≤ d.coefficient := by exact_mod_cast not_lt.mp hlong
  have hpower : (Decimal.mk 1 (s + d.exponent)).value = 10 ^ s * 10 ^ d.exponent := by
    rw [Decimal.value, Nat.cast_one, one_mul, zpow_add₀ (by norm_num), zpow_natCast]
  -- Between the two decimals lies a power of ten, which has one digit.
  have hbetween : i.Contains (quarters ⟨1, s + d.exponent⟩) := by
    refine he.between h.contains (quarters_le_quarters ?_) (quarters_le_quarters ?_)
    · rw [hpower]
      exact mul_le_mul hshort (zpow_le_zpow_right₀ (by norm_num) hexponent) (ten_zpow_pos _).le
        (by positivity)
    · rw [hpower]
      exact mul_le_mul_of_nonneg_right hlong' (ten_zpow_pos _).le
  rcases Nat.eq_zero_or_pos s with rfl | hpos
  · rw [Nat.pow_zero] at hs
    exact absurd (he.coefficient_pos hlow) (by omega)
  · exact h.not_meets _ (by omega) ⟨1, hbetween⟩

end IsCoarsest

end Interval

/-! ## The digits of a number -/

/-- The shortest decimal of a float is the coarsest one of its interval. -/
theorem isCoarsest_shortest (hpos : 0 < x.magnitude) :
    x.roundingInterval.IsCoarsest x.shortest := by
  have hlow := low_lt_value hpos
  rw [shortest, if_neg (Nat.ne_of_gt hpos)]
  exact Interval.isCoarsest_shortest hlow.1 (by have := value_lt_high x; omega)
    (contains_value hpos)

theorem shortest_zero (h : x.magnitude = 0) : x.shortest = ⟨0, 0⟩ := by
  rw [shortest, if_pos h]

/-- The digits do not end in a zero, but for zero itself. -/
theorem shortest_mod_ten (hpos : 0 < x.magnitude) : x.shortest.coefficient % 10 ≠ 0 :=
  (isCoarsest_shortest hpos).mod_ten_ne_zero

/-- **The shortest digits are rounded to the number.** -/
theorem isNearest_shortest (hfinite : x.isFinite = true) :
    IsNearest (signed x.isNegative x.shortest.value) x := by
  have hone := cast_one_pos
  rcases Nat.eq_zero_or_pos x.magnitude with hzero | hpos
  · have hunits : (0 : ℚ) * one ≤ 1 / 2 := (zero_mul _).trans_le (by norm_num)
    have hnearest := isNearest_zero x.isNegative (le_refl _) hunits
    rw [← hzero, ofMagnitude_magnitude] at hnearest
    rwa [shortest_zero hzero, Decimal.value, Nat.cast_zero, zero_mul]
  · have hcontains := (isCoarsest_shortest hpos).contains
    rw [quarters, contains_roundingInterval_iff hpos hfinite] at hcontains
    have hnearest := hcontains.isNearest x.isNegative
      (mul_nonneg x.shortest.value_nonneg hone.le)
    rwa [mul_div_assoc, div_self hone.ne', mul_one, ofMagnitude_magnitude] at hnearest

/-- **No fewer digits are rounded to the number,** whatever the power of ten and the sign. -/
theorem shortest_coefficient_lt (hfinite : x.isFinite = true) {negative : Bool}
    (h : IsNearest (signed negative d.value) x) (hs : d.coefficient < 10 ^ s) :
    x.shortest.coefficient < 10 ^ s := by
  rcases Nat.eq_zero_or_pos x.magnitude with hzero | hpos
  · rw [shortest_zero hzero]
    exact Nat.pow_pos (by decide)
  · have hcontains := h.nearestMagnitude d.value_nonneg
    rw [← contains_roundingInterval_iff hpos hfinite] at hcontains
    exact (isCoarsest_shortest hpos).coefficient_lt (low_lt_value hpos).1 hcontains hs

/-! ## Between powers of two -/

theorem unitsOf_power (j : Nat) : unitsOf ((1023 + j) * binade) = 2 ^ j * one := by
  have hsplit : (1023 + j) * binade = (1022 + j) * binade + binade := by
    rw [← Nat.succ_mul]
    congr 1
    omega
  have hplaces : 52 + (1022 + j) = j + unitPlaces := by
    rw [unitPlaces]
    omega
  rw [hsplit, unitsOf_step_add (by omega) (Or.inl (Nat.le_refl _)), binade_eq, ← Nat.pow_add,
    hplaces, Nat.pow_add, ← one_eq]

/-- The shortest digits stay on the side of a power of two that the number is on. -/
theorem shortest_lt_two_pow (hfinite : x.isFinite = true) (hj : j ≤ 1024)
    (h : |x.value| < 2 ^ j) : x.shortest.value < 2 ^ j := by
  have hone := cast_one_pos
  have hnearest := (isNearest_shortest hfinite).nearestMagnitude x.shortest.value_nonneg
  have hunits : (unitsOf x.magnitude : ℚ) < (2 ^ j * one : Nat) := by
    rw [abs_value, div_lt_iff₀ hone] at h
    exact_mod_cast h
  rw [← unitsOf_power, Nat.cast_lt, unitsOf_strictMono.lt_iff_lt] at hunits
  have hlt := hnearest.lt_unitsOf hunits (Nat.mul_le_mul_right binade (by omega))
  rw [unitsOf_power, Nat.cast_mul, Nat.cast_pow, Nat.cast_ofNat, mul_lt_mul_iff_left₀ hone] at hlt
  exact hlt

/-- A float beyond a power of two has a shortest decimal beyond it. -/
theorem two_pow_lt_shortest (hfinite : x.isFinite = true) (h : 2 ^ j < |x.value|) :
    2 ^ j < x.shortest.value := by
  have hone := cast_one_pos
  have hnearest := (isNearest_shortest hfinite).nearestMagnitude x.shortest.value_nonneg
  have hunits : ((2 ^ j * one : Nat) : ℚ) < unitsOf x.magnitude := by
    rw [abs_value, lt_div_iff₀ hone] at h
    exact_mod_cast h
  rw [← unitsOf_power, Nat.cast_lt, unitsOf_strictMono.lt_iff_lt] at hunits
  have hlt := hnearest.unitsOf_lt hunits
  rw [unitsOf_power, Nat.cast_mul, Nat.cast_pow, Nat.cast_ofNat, mul_lt_mul_iff_left₀ hone] at hlt
  exact hlt

end SqlTemplate.Binary64
