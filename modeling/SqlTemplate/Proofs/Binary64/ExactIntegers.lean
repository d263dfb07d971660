import SqlTemplate.Proofs.Binary64.ShortestDigits

/-!
Whole numbers below `10 ^ 16`.

The shortest digits of a number are rounded to it, but need not be equal to it. Without places
behind the point they are, below `10 ^ 16` (`value_shortest_of_whole`). Up to `2 ^ 53` the gaps
between numbers divide one, and no whole number lies within half a gap of another multiple of the
gap. Above, numbers are even and half a gap is one: a multiple of ten is even as well, and the
multiples of one include the number itself.
-/

set_option autoImplicit false

namespace SqlTemplate.Binary64

variable {m : Nat} {d : Decimal} {x : Binary64}

/-- What is rounded to a number lies within half a gap of it. -/
theorem two_mul_abs_sub_le (hpos : 0 < x.magnitude)
    (h : x.roundingInterval.Contains (quarters d)) :
    2 * |d.value * one - unitsOf x.magnitude| ≤ 2 ^ step x.magnitude := by
  have hlow := h.low_le
  have hhigh := h.le_high
  -- The gap below is not wider than the gap above, which is the one of the statement.
  have hpred := unitsOf_pred_add hpos
  have hbelow : 2 * unitsOf x.magnitude
      ≤ 2 * unitsOf (x.magnitude - 1) + 2 * 2 ^ step x.magnitude := by
    rw [← hpred]
    split <;> omega
  have hbelow' : 2 * (unitsOf x.magnitude : ℚ)
      ≤ 2 * unitsOf (x.magnitude - 1) + 2 * 2 ^ step x.magnitude := by exact_mod_cast hbelow
  rw [low_roundingInterval hpos] at hlow
  rw [high_roundingInterval, unitsOf_succ] at hhigh
  rw [quarters] at hlow hhigh
  push_cast at hlow hhigh
  have hhalf : |d.value * one - unitsOf x.magnitude| ≤ 2 ^ step x.magnitude / 2 := by
    rw [abs_le]
    constructor <;> linarith
  linarith

/-- From the first step on, significands are full. -/
theorem binade_mul_le_unitsOf (h : 0 < step m) : binade * 2 ^ step m ≤ unitsOf m := by
  have hfull : binade ≤ significand m := by
    have hle := Nat.div_mul_le_self m binade
    have hsplit := Nat.sub_one_mul (m / binade) binade
    have hpos : binade ≤ m / binade * binade := by
      refine Nat.le_mul_of_pos_left binade ?_
      rw [step] at h
      omega
    rw [significand, step]
    omega
  exact Nat.mul_le_mul_right _ hfull

/-- Below `10 ^ 16` the gaps are at most two. -/
theorem step_le_of_lt (h : |x.value| < 10 ^ 16) : step x.magnitude ≤ unitPlaces + 1 := by
  have hone := cast_one_pos
  by_contra hlarge
  have hunits := binade_mul_le_unitsOf (m := x.magnitude) (by omega)
  rw [abs_value, div_lt_iff₀ hone] at h
  have hpower : 10 ^ 16 * one ≤ binade * 2 ^ (unitPlaces + 2) := by
    -- `2 ^ 54` is above `10 ^ 16`.
    rw [Nat.pow_add, ← one_eq, binade_numeral]
    generalize one = units
    omega
  have hstep : binade * 2 ^ (unitPlaces + 2) ≤ binade * 2 ^ step x.magnitude := by
    generalize unitPlaces = places at hlarge
    exact Nat.mul_le_mul_left _ (Nat.pow_le_pow_right two_pos (by omega))
  have hle : ((10 ^ 16 * one : Nat) : ℚ) ≤ unitsOf x.magnitude :=
    Nat.cast_le.mpr (hpower.trans (hstep.trans hunits))
  rw [Nat.cast_mul, Nat.cast_pow, Nat.cast_ofNat] at hle
  exact absurd h (not_lt.mpr hle)

/-- Multiples of a gap that lie at most half of it apart are equal. -/
theorem eq_of_dvd_of_two_mul_abs_sub_le {a b g : Nat} (hg : 0 < g) (ha : g ∣ a) (hb : g ∣ b)
    (h : 2 * |(a : ℚ) - b| ≤ g) : a = b := by
  have hdvd : (g : Int) ∣ (a : Int) - b :=
    Int.dvd_sub (Int.natCast_dvd_natCast.mpr ha) (Int.natCast_dvd_natCast.mpr hb)
  have hle : 2 * |(a : Int) - b| ≤ g := by exact_mod_cast h
  have hzero := Int.eq_zero_of_abs_lt_dvd hdvd (by omega)
  omega

/-- A number that is a whole one has it as its point on the grid of whole numbers. -/
theorem coefficient_of_dvd_unitsOf (hpos : 0 < x.magnitude) (hgrid : x.shortest.exponent = 0)
    (h : one ∣ unitsOf x.magnitude) : x.shortest.coefficient * one = unitsOf x.magnitude := by
  obtain ⟨c, hc⟩ := h
  have hpoint : (x.roundingInterval.value : ℚ) = quarters ⟨c, 0⟩ := by
    rw [value_roundingInterval, hc, quarters, Decimal.value, zpow_zero, mul_one]
    push_cast
    ring
  have hfound := (isCoarsest_shortest hpos).onGrid
  rw [hgrid, Interval.onGrid?_value (contains_value hpos) hpoint] at hfound
  rw [← Option.some.inj hfound, hc, Nat.mul_comm]

/-- A whole number with shortest digits is a multiple of the gap, or the grid is that of all whole
numbers and the float is one of them. -/
theorem dvd_of_step_le {c k s : Nat} (hs : s ≤ unitPlaces + 1) :
    2 ^ s ∣ c * 10 ^ k * one ∨ k = 0 ∧ one ∣ 2 ^ s := by
  rw [one_eq]
  generalize unitPlaces = places at hs
  rcases Nat.lt_or_ge places s with hlt | hge
  · rcases Nat.eq_zero_or_pos k with rfl | hk
    · exact Or.inr ⟨rfl, Nat.pow_dvd_pow 2 hlt.le⟩
    -- The gap is two, and a multiple of ten is even.
    · have hten : 2 ∣ c * 10 ^ k :=
        ((by decide : 2 ∣ 10).trans (dvd_pow_self 10 (Nat.ne_of_gt hk))).mul_left c
      have heven := Nat.mul_dvd_mul hten (Nat.dvd_refl (2 ^ places))
      rw [← Nat.pow_succ'] at heven
      exact Or.inl ((Nat.pow_dvd_pow 2 hs).trans heven)
  · exact Or.inl ((Nat.pow_dvd_pow 2 hge).mul_left _)

/-- **Below `10 ^ 16`, shortest digits without places behind the point are the number itself.** -/
theorem value_shortest_of_whole (hlt : |x.value| < 10 ^ 16) (hwhole : 0 ≤ x.shortest.exponent) :
    x.shortest.value = |x.value| := by
  rcases Nat.eq_zero_or_pos x.magnitude with hzero | hpos
  · rw [shortest_zero hzero, abs_value, hzero, unitsOf_zero, Decimal.value, Nat.cast_zero, zero_mul,
      zero_div]
  have hone := cast_one_pos
  have hdistance := two_mul_abs_sub_le hpos (isCoarsest_shortest hpos).contains
  obtain ⟨k, hk⟩ := Int.eq_ofNat_of_zero_le hwhole
  have hvalue : x.shortest.value * one = (x.shortest.coefficient * 10 ^ k * one : Nat) := by
    rw [Decimal.value, hk, zpow_natCast]
    push_cast
    rfl
  have hgap : 2 ^ step x.magnitude ∣ unitsOf x.magnitude := Nat.dvd_mul_left _ _
  -- Both sides are multiples of the gap between floats and at most half a gap apart, or else the
  -- float is a point of the grid that its digits are taken from.
  have hunits : x.shortest.coefficient * 10 ^ k * one = unitsOf x.magnitude := by
    rw [hvalue] at hdistance
    rcases dvd_of_step_le (c := x.shortest.coefficient) (k := k) (step_le_of_lt hlt)
      with hmultiple | ⟨rfl, hwholes⟩
    · refine eq_of_dvd_of_two_mul_abs_sub_le (Nat.two_pow_pos _) hmultiple hgap ?_
      rw [Nat.cast_pow, Nat.cast_ofNat]
      exact hdistance
    · rw [Nat.pow_zero, Nat.mul_one]
      exact coefficient_of_dvd_unitsOf hpos hk (hwholes.trans hgap)
  rw [abs_value, eq_div_iff hone.ne', hvalue, hunits]

end SqlTemplate.Binary64
