import SqlTemplate.Binary64.Shortest
import SqlTemplate.Proofs.Binary64.Nearest

/-!
The rationals that are rounded to a number.

They form an interval around it, which ends halfway to the number below and halfway to the number
above. `Binary64.roundingInterval` has these ends in quarters of a unit, so that they are natural
numbers; the gap below a power of two is half as wide as the gap above it. An end lies as near to
the neighbour as to the number, and of the two the even one is taken. Main statement: what is
measured in units is nearest to a magnitude exactly if the interval of the magnitude contains it
(`contains_roundingInterval_iff`).

The largest finite number has a neighbour above as well, the one that infinity stands for, and its
interval ends halfway there.
-/

set_option autoImplicit false

namespace SqlTemplate.Binary64

variable {j m : Nat} {p q r : ℚ} {x : Binary64} {i : Interval}

/-! ## Intervals -/

namespace Interval

/-- Whether a rational, in quarters of a unit, lies in the interval. -/
def Contains (i : Interval) (q : ℚ) : Prop :=
  if i.closed then i.low ≤ q ∧ q ≤ i.high else i.low < q ∧ q < i.high

theorem Contains.low_le (h : i.Contains q) : i.low ≤ q := by
  unfold Contains at h
  split at h
  · exact h.1
  · exact h.1.le

theorem Contains.le_high (h : i.Contains q) : q ≤ i.high := by
  unfold Contains at h
  split at h
  · exact h.2
  · exact h.2.le

/-- An interval has no gaps. -/
theorem Contains.between (hp : i.Contains p) (hr : i.Contains r) (hpq : p ≤ q) (hqr : q ≤ r) :
    i.Contains q := by
  unfold Contains at hp hr ⊢
  split
  · rename_i hclosed
    rw [if_pos hclosed] at hp hr
    exact ⟨hp.1.trans hpq, hqr.trans hr.2⟩
  · rename_i hopen
    rw [if_neg hopen] at hp hr
    exact ⟨hp.1.trans_le hpq, hqr.trans_lt hr.2⟩

end Interval

/-! ## The middles between neighbours -/

/-- The binade as a numeral, for quotients and rests by it. -/
theorem binade_numeral : binade = 4503599627370496 := rfl

/-- The gap below a number is that of its own step, or half of it for a power of two. -/
theorem unitsOf_pred_add (hm : 0 < m) :
    2 * unitsOf (m - 1)
        + (if significand m = binade ∧ 0 < step m then 2 ^ step m else 2 * 2 ^ step m)
      = 2 * unitsOf m := by
  have hsucc := unitsOf_succ (m - 1)
  rw [Nat.sub_add_cancel hm] at hsucc
  rw [hsucc, Nat.mul_add]
  congr 1
  split
  · rename_i hpower
    -- The number below has all places of the significand set, one step finer.
    have hstep : step m = step (m - 1) + 1 := by
      rw [significand, step, binade_numeral] at hpower
      rw [step, step, binade_numeral]
      omega
    rw [hstep, Nat.pow_succ']
  · rename_i hpower
    have hstep : step m = step (m - 1) := by
      rw [significand, step, binade_numeral] at hpower
      rw [step, step, binade_numeral]
      omega
    rw [hstep]

/-- The interval begins halfway to the float before. -/
theorem low_roundingInterval (hm : 0 < x.magnitude) :
    x.roundingInterval.low = 2 * (unitsOf (x.magnitude - 1) + unitsOf x.magnitude) := by
  have hgap := unitsOf_pred_add hm
  show 4 * x.units - (if significand x.magnitude = binade ∧ 0 < step x.magnitude then _ else _) = _
  rw [units_eq, Nat.pow_eq]
  omega

/-- In quarters of a unit, the value of a float is four times its units. -/
theorem value_roundingInterval (x : Binary64) :
    x.roundingInterval.value = 4 * unitsOf x.magnitude := by
  show 4 * x.units = _
  rw [units_eq]

/-- The interval ends halfway to the next float. -/
theorem high_roundingInterval (x : Binary64) :
    x.roundingInterval.high = 2 * (unitsOf x.magnitude + unitsOf (x.magnitude + 1)) := by
  show 4 * x.units + 2 * Nat.pow 2 (step x.magnitude) = _
  rw [units_eq, Nat.pow_eq, unitsOf_succ]
  omega

/-- The ends belong to the interval of an even magnitude. -/
theorem closed_roundingInterval (x : Binary64) :
    x.roundingInterval.closed = true ↔ x.magnitude % 2 = 0 := by
  -- The rest of the magnitude by two is that of the significand, as the binade is even.
  have hsplit := step_mul_add_significand x.magnitude
  show decide (significand x.magnitude % 2 = 0) = true ↔ _
  rw [decide_eq_true_eq]
  rw [binade_numeral] at hsplit
  omega

/-- The interval is around its number, and zero is not in it. -/
theorem low_lt_value (hm : 0 < x.magnitude) :
    0 < x.roundingInterval.low ∧ x.roundingInterval.low < x.roundingInterval.value := by
  have hlt := unitsOf_strictMono (Nat.sub_one_lt (Nat.ne_of_gt hm))
  rw [low_roundingInterval hm, value_roundingInterval]
  omega

theorem value_lt_high (x : Binary64) : x.roundingInterval.value < x.roundingInterval.high := by
  have hlt := unitsOf_strictMono (Nat.lt_add_one x.magnitude)
  rw [high_roundingInterval, value_roundingInterval]
  omega

/-- A float lies in its own interval. -/
theorem contains_value (hm : 0 < x.magnitude) :
    x.roundingInterval.Contains x.roundingInterval.value := by
  have hlow : (x.roundingInterval.low : ℚ) < x.roundingInterval.value :=
    Nat.cast_lt.mpr (low_lt_value hm).2
  have hhigh : (x.roundingInterval.value : ℚ) < x.roundingInterval.high :=
    Nat.cast_lt.mpr (value_lt_high x)
  unfold Interval.Contains
  split
  · exact ⟨hlow.le, hhigh.le⟩
  · exact ⟨hlow, hhigh⟩

/-! ## What is nearest -/

/-- Of two points the upper one is nearer from their middle on. -/
theorem abs_sub_le_abs_sub_iff_of_lt {a b : ℚ} (hab : a < b) :
    |q - b| ≤ |q - a| ↔ a + b ≤ 2 * q := by
  have hpos : 0 < b - a := sub_pos.mpr hab
  rw [← sq_le_sq, ← sub_nonneg]
  have hfactor : (q - a) ^ 2 - (q - b) ^ 2 = (b - a) * (2 * q - (a + b)) := by ring
  rw [hfactor, mul_nonneg_iff_of_pos_left hpos, sub_nonneg]

/-- Up to their middle the lower one is nearer. -/
theorem abs_sub_le_abs_sub_iff_of_gt {a b : ℚ} (hab : a < b) :
    |q - a| ≤ |q - b| ↔ 2 * q ≤ a + b := by
  have hpos : 0 < b - a := sub_pos.mpr hab
  rw [← sq_le_sq, ← sub_nonneg]
  have hfactor : (q - b) ^ 2 - (q - a) ^ 2 = (b - a) * (a + b - 2 * q) := by ring
  rw [hfactor, mul_nonneg_iff_of_pos_left hpos, sub_nonneg]

/-- A magnitude is nearest up to the middles beside it, and on a middle if it is even. -/
theorem nearestMagnitude_iff_middles (hpos : 0 < m) (hfinite : m < infinityMagnitude) :
    NearestMagnitude q m
      ↔ unitsOf (m - 1) + unitsOf m ≤ 2 * q ∧ 2 * q ≤ unitsOf m + unitsOf (m + 1)
        ∧ (2 * q = unitsOf (m - 1) + unitsOf m ∨ 2 * q = unitsOf m + unitsOf (m + 1) →
          m % 2 = 0) := by
  have hbelow : (unitsOf (m - 1) : ℚ) < unitsOf m :=
    Nat.cast_lt.mpr (unitsOf_strictMono (Nat.sub_one_lt (Nat.ne_of_gt hpos)))
  have habove : (unitsOf m : ℚ) < unitsOf (m + 1) :=
    Nat.cast_lt.mpr (unitsOf_strictMono (Nat.lt_add_one m))
  constructor
  · intro h
    have hlow := (abs_sub_le_abs_sub_iff_of_lt hbelow).mp (h.le (m - 1) (by omega))
    have hhigh := (abs_sub_le_abs_sub_iff_of_gt habove).mp (h.le (m + 1) hfinite)
    refine ⟨hlow, hhigh, ?_⟩
    rintro (htie | htie)
    · have hdistance := (abs_sub_le_abs_sub_iff_of_gt hbelow).mpr htie.le
      exact h.even (m - 1) (by omega) (unitsOf_strictMono.injective.ne (by omega))
        (le_antisymm hdistance (h.le (m - 1) (by omega)))
    · have hdistance := (abs_sub_le_abs_sub_iff_of_lt habove).mpr htie.ge
      exact h.even (m + 1) hfinite (unitsOf_strictMono.injective.ne (by omega))
        (le_antisymm hdistance (h.le (m + 1) hfinite))
  · rintro ⟨hlow, hhigh, heven⟩
    have hmono : ∀ {j k : Nat}, j ≤ k → (unitsOf j : ℚ) ≤ unitsOf k :=
      fun hjk => Nat.cast_le.mpr (unitsOf_strictMono.monotone hjk)
    refine ⟨hfinite.le, fun j _ => ?_, fun j _ hne htie => heven ?_⟩
    · rcases Nat.lt_trichotomy j m with hlt | rfl | hgt
      -- Beyond a neighbour the middle is farther away than the middle to the neighbour.
      · have hj := hmono (by omega : j ≤ m - 1)
        exact (abs_sub_le_abs_sub_iff_of_lt (hj.trans_lt hbelow)).mpr (by linarith)
      · exact le_refl _
      · have hj := hmono (by omega : m + 1 ≤ j)
        exact (abs_sub_le_abs_sub_iff_of_gt (habove.trans_le hj)).mpr (by linarith)
    -- Another magnitude that is as near has the middle at the end that the rational lies on.
    · rcases Nat.lt_trichotomy j m with hlt | rfl | hgt
      · have hj := hmono (by omega : j ≤ m - 1)
        have hend := (abs_sub_le_abs_sub_iff_of_gt (hj.trans_lt hbelow)).mp htie.le
        exact Or.inl (by linarith)
      · exact absurd rfl hne
      · have hj := hmono (by omega : m + 1 ≤ j)
        have hend := (abs_sub_le_abs_sub_iff_of_lt (habove.trans_le hj)).mp htie.le
        exact Or.inr (by linarith)

/-- What is rounded to a number lies below the larger numbers. -/
theorem NearestMagnitude.lt_unitsOf (h : NearestMagnitude q m) (hlt : m < j)
    (hj : j ≤ infinityMagnitude) : q < unitsOf j := by
  have hunits : (unitsOf m : ℚ) < unitsOf j := Nat.cast_lt.mpr (unitsOf_strictMono hlt)
  have hmiddle := (abs_sub_le_abs_sub_iff_of_gt hunits).mp (h.le j hj)
  linarith

/-- What is rounded to a number lies above the smaller numbers. -/
theorem NearestMagnitude.unitsOf_lt (h : NearestMagnitude q m) (hlt : j < m) : unitsOf j < q := by
  have hunits : (unitsOf j : ℚ) < unitsOf m := Nat.cast_lt.mpr (unitsOf_strictMono hlt)
  have hmiddle := (abs_sub_le_abs_sub_iff_of_lt hunits).mp (h.le j (hlt.le.trans h.le_infinity))
  linarith

/-- **The interval of a number contains what is rounded to it,** measured in quarters of a unit. -/
theorem contains_roundingInterval_iff (hpos : 0 < x.magnitude) (hfinite : x.isFinite = true) :
    x.roundingInterval.Contains (4 * q) ↔ NearestMagnitude q x.magnitude := by
  rw [isFinite, decide_eq_true_eq] at hfinite
  rw [nearestMagnitude_iff_middles hpos hfinite, Interval.Contains, low_roundingInterval hpos,
    high_roundingInterval]
  push_cast
  -- The ends are ties, and they belong to the interval exactly where ties go to this number.
  by_cases heven : x.magnitude % 2 = 0
  · rw [if_pos ((closed_roundingInterval x).mpr heven)]
    constructor
    · rintro ⟨hlow, hhigh⟩
      exact ⟨by linarith, by linarith, fun _ => heven⟩
    · rintro ⟨hlow, hhigh, -⟩
      exact ⟨by linarith, by linarith⟩
  · rw [if_neg (mt (closed_roundingInterval x).mp heven)]
    constructor
    · rintro ⟨hlow, hhigh⟩
      refine ⟨by linarith, by linarith, ?_⟩
      rintro (htie | htie) <;> linarith
    · rintro ⟨hlow, hhigh, htie⟩
      rw [or_imp] at htie
      have hlow' := lt_of_le_of_ne hlow fun h => heven (htie.1 h.symm)
      have hhigh' := lt_of_le_of_ne hhigh fun h => heven (htie.2 h)
      exact ⟨by linarith, by linarith⟩

/-! ## Numbers and magnitudes -/

/-- A float is put together from its own parts. -/
theorem ofMagnitude_magnitude (x : Binary64) : ofMagnitude x.isNegative x.magnitude = x := by
  have hm := magnitude_lt_signWeight x
  have hbits := eq_of_isNegative_of_magnitude (isNegative_ofMagnitude x.isNegative hm)
    (magnitude_ofMagnitude x.isNegative hm)
  exact congrArg Binary64.mk hbits

/-- The nearest number has the nearest magnitude. -/
theorem IsNearest.nearestMagnitude {negative : Bool} (hr : 0 ≤ r)
    (h : IsNearest (signed negative r) x) : NearestMagnitude (r * one) x.magnitude := by
  have hone := cast_one_pos
  have hdistance : ∀ j, |r * one - unitsOf j| = |r - unitsOf j / one| * one := fun j => by
    rw [← abs_of_pos hone, ← abs_mul, abs_of_pos hone, sub_mul, div_mul_cancel₀ _ hone.ne']
  -- Opposite numbers are on the far side of zero, so the sign of the number does not help it.
  have hsize : |r - unitsOf x.magnitude / one| ≤ |signed negative r - x.value| := by
    rw [Binary64.value_eq]
    exact abs_sub_le_abs_signed_sub hr (unitsOf_div_nonneg _) _ _
  have hle := isNaN_eq_false_iff.mp h.isNumber
  have hother : ∀ j ≤ infinityMagnitude, (ofMagnitude negative j).isNaN = false
      ∧ |signed negative r - (ofMagnitude negative j).value| = |r - unitsOf j / one| := by
    intro j hj
    have hj' := Nat.lt_of_le_of_lt hj infinityMagnitude_lt_signWeight
    rw [isNaN_eq_false_iff, magnitude_ofMagnitude negative hj', value_ofMagnitude negative hj',
      abs_signed_sub_signed]
    exact ⟨hj, rfl⟩
  refine ⟨hle, fun j hj => ?_, fun j hj hne htie => ?_⟩
  · obtain ⟨hnumber, heq⟩ := hother j hj
    rw [hdistance, hdistance]
    refine mul_le_mul_of_nonneg_right (hsize.trans ?_) hone.le
    rw [← heq]
    exact h.le _ hnumber
  · obtain ⟨hnumber, heq⟩ := hother j hj
    rw [hdistance, hdistance] at htie
    have htie := mul_right_cancel₀ hone.ne' htie
    refine h.even _ hnumber (fun hvalue => hne ?_) ?_
    · have hmagnitude := magnitude_eq_of_value_eq hvalue
      rw [magnitude_ofMagnitude negative (Nat.lt_of_le_of_lt hj infinityMagnitude_lt_signWeight)]
        at hmagnitude
      rw [hmagnitude]
    · refine le_antisymm ?_ (h.le _ hnumber)
      rw [heq, htie]
      exact hsize

end SqlTemplate.Binary64
