import Mathlib.Data.Rat.Floor
import Mathlib.Tactic.FieldSimp
import Mathlib.Tactic.Linarith
import Mathlib.Tactic.Positivity
import Mathlib.Tactic.Ring
import SqlTemplate.Proofs.Binary64.PowersOfTwo

/-!
The number nearest to a rational.

A 64-bit number stands for a rational, its `value`; an infinity counts as `± 2 ^ 1024`, which is
where the next number would be. The number nearest to a rational is one that no other comes closer
to, and if another one is as close, it is the even one (`IsNearest`); two of them are the same
number but for the sign of a zero (`IsNearest.value_eq`). Rounding as it is computed, by one
integer division in steps of `2 ^ k` units, leads to the nearest number (`isNearest_ofFraction`):
every magnitude stands for a multiple of the step, or else it lies below all that have as many
binary places as the fraction.
-/

set_option autoImplicit false

namespace SqlTemplate

/-! ## Rounding to a natural number -/

/-- Rounding does not go beyond a whole number. -/
theorem roundHalfEven_le {n d b : Nat} (h : n < d * b) : roundHalfEven n d ≤ b := by
  have hquotient : n / d < b := Nat.div_lt_of_lt_mul h
  rw [roundHalfEven]
  split
  · exact hquotient.le
  split
  · exact hquotient
  split
  · exact hquotient.le
  · exact hquotient

/-- What is rounded lies half from the result at most, and half only if the result is even. -/
theorem abs_sub_roundHalfEven (n : Nat) {d : Nat} (hd : 0 < d) :
    |(n : ℚ) / d - roundHalfEven n d| ≤ 1 / 2
      ∧ (|(n : ℚ) / d - roundHalfEven n d| = 1 / 2 → roundHalfEven n d % 2 = 0) := by
  have hpos : (0 : ℚ) < d := by exact_mod_cast hd
  -- The comparisons of the definition are turned into comparisons of the remainder with one half;
  -- which of the two neighbours is taken depends on nothing else.
  have hsplit : (n : ℚ) / d = (n / d : Nat) + (n % d : Nat) / d := by
    field_simp
    exact_mod_cast (Nat.div_add_mod n d).symm
  have hbelow : (n % d : Nat) / (d : ℚ) < 1 / 2 ↔ 2 * (n % d) < d := by
    rw [div_lt_div_iff₀ hpos two_pos]
    norm_cast
    omega
  have habove : 1 / 2 < (n % d : Nat) / (d : ℚ) ↔ d < 2 * (n % d) := by
    rw [div_lt_div_iff₀ two_pos hpos]
    norm_cast
    omega
  have hnonneg : 0 ≤ (n % d : Nat) / (d : ℚ) := by positivity
  have hlt : (n % d : Nat) / (d : ℚ) < 1 := by
    rw [div_lt_one hpos]
    exact_mod_cast Nat.mod_lt n hd
  rw [hsplit, roundHalfEven]
  generalize (n % d : Nat) / (d : ℚ) = rest at *
  have hdown : |((n / d : Nat) : ℚ) + rest - (n / d : Nat)| = rest := by
    rw [add_sub_cancel_left, abs_of_nonneg hnonneg]
  have hup : |((n / d : Nat) : ℚ) + rest - (n / d + 1 : Nat)| = 1 - rest := by
    rw [Nat.cast_add_one, add_sub_add_left_eq_sub, abs_sub_comm, abs_of_nonneg (by linarith)]
  by_cases hlow : 2 * (n % d) < d
  · have := hbelow.mpr hlow
    rw [if_pos hlow, hdown]
    exact ⟨by linarith, fun h => absurd h (by linarith)⟩
  by_cases hhigh : d < 2 * (n % d)
  · have := habove.mpr hhigh
    rw [if_neg hlow, if_pos hhigh, hup]
    exact ⟨by linarith, fun h => absurd h (by linarith)⟩
  -- A tie: the even one of the two neighbours is taken.
  · have h₁ := mt hbelow.mp hlow
    have h₂ := mt habove.mp hhigh
    rw [if_neg hlow, if_neg hhigh]
    by_cases heven : n / d % 2 = 0
    · rw [if_pos heven, hdown]
      exact ⟨by linarith, fun _ => heven⟩
    · rw [if_neg heven, hup]
      exact ⟨by linarith, fun _ => by omega⟩

/-- No natural number is nearer than the one that is rounded to, and if another one is as near, the
result is even. -/
theorem roundHalfEven_nearest (n : Nat) {d : Nat} (hd : 0 < d) (j : Nat) :
    |(n : ℚ) / d - roundHalfEven n d| ≤ |(n : ℚ) / d - j|
      ∧ (j ≠ roundHalfEven n d → |(n : ℚ) / d - j| = |(n : ℚ) / d - roundHalfEven n d| →
        roundHalfEven n d % 2 = 0) := by
  obtain ⟨hhalf, heven⟩ := abs_sub_roundHalfEven n hd
  by_cases hj : j = roundHalfEven n d
  · rw [hj]
    exact ⟨le_refl _, fun hne => absurd rfl hne⟩
  -- Two natural numbers are one apart, so the other one is half away or more.
  · have hone : (1 : ℚ) ≤ |(roundHalfEven n d : ℚ) - j| := by
      have hint : (1 : ℤ) ≤ |(roundHalfEven n d : ℤ) - j| := Int.one_le_abs (by omega)
      exact_mod_cast hint
    have htriangle := abs_sub_le (roundHalfEven n d : ℚ) (n / d) j
    rw [abs_sub_comm (roundHalfEven n d : ℚ) (n / d)] at htriangle
    exact ⟨by linarith, fun _ htie => heven (by linarith)⟩

namespace Binary64

variable {negative : Bool} {m k c : Nat} {q r : ℚ} {x y : Binary64}

theorem cast_one_pos : (0 : ℚ) < one := by exact_mod_cast one_pos

/-! ## Magnitudes in units -/

/-- The distance from zero of a magnitude, in units. -/
def unitsOf (m : Nat) : Nat :=
  significand m * 2 ^ step m

theorem units_eq (x : Binary64) : x.units = unitsOf x.magnitude := by
  rw [units, unitsOf, Nat.pow_eq]

theorem binade_pos : 0 < binade := by decide

/-- A significand fits two binades. -/
theorem significand_lt (m : Nat) : significand m < 2 * binade := by
  have hsplit := Nat.div_add_mod m binade
  have hmod := Nat.mod_lt m binade_pos
  rw [significand, step]
  rcases Nat.eq_zero_or_pos (m / binade) with hzero | hpos
  · rw [hzero] at hsplit ⊢
    omega
  · have hpred := Nat.sub_one_mul (m / binade) binade
    rw [Nat.mul_comm] at hsplit
    have := Nat.le_mul_of_pos_left binade hpos
    omega

/-- A magnitude is made of its step and its significand. -/
theorem step_mul_add_significand (m : Nat) : step m * binade + significand m = m := by
  have hle := Nat.div_mul_le_self m binade
  have hstep := Nat.mul_le_mul_right binade (Nat.sub_le (m / binade) 1)
  rw [significand, step]
  omega

/-- A significand may be as large as two binades; it then carries into the next step. -/
theorem unitsOf_step_add (hle : c ≤ 2 * binade) (hfull : binade ≤ c ∨ k = 0) :
    unitsOf (k * binade + c) = c * 2 ^ k := by
  have hstep : step (k * binade + c) = k + (c / binade - 1) := by
    rw [step, Nat.add_comm, Nat.add_mul_div_right c k binade_pos]
    rcases hfull with hfull | rfl
    · have := Nat.div_pos hfull binade_pos
      omega
    · omega
  rw [unitsOf, significand, hstep]
  -- Only a full double binade carries over; it is the first significand of the next step.
  by_cases hcarry : c = 2 * binade
  · rw [hcarry, Nat.mul_div_cancel _ binade_pos, Nat.pow_succ, Nat.add_mul]
    have hrest : k * binade + 2 * binade - (k * binade + 1 * binade) = binade := by omega
    rw [hrest]
    ring
  · have hone : c / binade - 1 = 0 := by
      have := (Nat.div_lt_iff_lt_mul binade_pos).mpr (Nat.lt_of_le_of_ne hle hcarry)
      omega
    rw [hone, Nat.add_zero, Nat.add_sub_cancel_left]

/-- The next magnitude lies one step further. -/
theorem unitsOf_succ (m : Nat) : unitsOf (m + 1) = unitsOf m + 2 ^ step m := by
  have hfull : binade ≤ significand m + 1 ∨ step m = 0 := by
    have hsplit := Nat.div_add_mod m binade
    rw [significand, step]
    rcases Nat.lt_or_ge (m / binade) 2 with hsmall | hlarge
    · exact Or.inr (by omega)
    · have hpred := Nat.sub_one_mul (m / binade) binade
      have := Nat.le_mul_of_pos_left binade (by omega : 0 < m / binade)
      rw [Nat.mul_comm] at hsplit
      exact Or.inl (by omega)
  have hnext : m + 1 = step m * binade + (significand m + 1) := by
    rw [← Nat.add_assoc, step_mul_add_significand]
  rw [hnext, unitsOf_step_add (significand_lt m) hfull, Nat.succ_mul]
  rfl

/-- **A larger magnitude stands for more units.** -/
theorem unitsOf_strictMono : StrictMono unitsOf := by
  refine strictMono_nat_of_lt_succ fun m => ?_
  rw [unitsOf_succ]
  exact Nat.lt_add_of_pos_right (Nat.two_pow_pos _)

theorem unitsOf_zero : unitsOf 0 = 0 := by
  rw [unitsOf, significand, Nat.zero_sub, Nat.zero_mul]

/-- From the step of infinity on, full significands stand for at least as much as infinity. -/
theorem unitsOf_infinityMagnitude_le (hk : 2046 ≤ k) :
    unitsOf infinityMagnitude ≤ binade * 2 ^ k := by
  have hle : infinityMagnitude ≤ k * binade + binade := by
    rw [← Nat.succ_mul]
    exact Nat.mul_le_mul_right binade (by omega)
  rw [← unitsOf_step_add (by omega) (Or.inl (Nat.le_refl binade))]
  exact unitsOf_strictMono.monotone hle

/-- A magnitude stands for a multiple of `2 ^ k` units, or it lies below those of step `k`. -/
theorem unitsOf_cases (k m : Nat) :
    (∃ j, unitsOf m = j * 2 ^ k) ∨ 0 < k ∧ unitsOf m < binade * 2 ^ k := by
  by_cases hk : k ≤ step m
  · refine Or.inl ⟨significand m * 2 ^ (step m - k), ?_⟩
    rw [unitsOf, Nat.mul_assoc, ← Nat.pow_add, Nat.sub_add_cancel hk]
  · obtain ⟨i, rfl⟩ := Nat.exists_eq_add_one_of_ne_zero (by omega : k ≠ 0)
    refine Or.inr ⟨Nat.succ_pos i, ?_⟩
    calc unitsOf m < 2 * binade * 2 ^ step m :=
          Nat.mul_lt_mul_of_pos_right (significand_lt m) (Nat.two_pow_pos _)
      _ ≤ 2 * binade * 2 ^ i :=
          Nat.mul_le_mul_left _ (Nat.pow_le_pow_right two_pos (by omega))
      _ = binade * 2 ^ (i + 1) := by ring

/-! ## The nearest magnitude -/

/-- Among the magnitudes of numbers, the one that is nearest to `q` units; of two that are equally
near, the even one. -/
structure NearestMagnitude (q : ℚ) (m : Nat) : Prop where
  le_infinity : m ≤ infinityMagnitude
  le : ∀ i ≤ infinityMagnitude, |q - unitsOf m| ≤ |q - unitsOf i|
  even : ∀ i ≤ infinityMagnitude, unitsOf i ≠ unitsOf m → |q - unitsOf i| = |q - unitsOf m| →
    m % 2 = 0

/-- Half a unit and less is rounded to zero. -/
theorem nearestMagnitude_zero (hnonneg : 0 ≤ q) (hq : q ≤ 1 / 2) : NearestMagnitude q 0 := by
  refine ⟨Nat.zero_le _, fun i _ => ?_, fun _ _ _ _ => rfl⟩
  rw [unitsOf_zero, Nat.cast_zero, sub_zero, abs_of_nonneg hnonneg]
  rcases Nat.eq_zero_or_pos (unitsOf i) with hzero | hpos
  · rw [hzero, Nat.cast_zero, sub_zero, abs_of_nonneg hnonneg]
  · have hone : (1 : ℚ) ≤ unitsOf i := by exact_mod_cast hpos
    rw [abs_sub_comm, abs_of_nonneg (by linarith)]
    linarith

/-- From `2 ^ 1024` on, everything is rounded to infinity. -/
theorem nearestMagnitude_infinity (hq : (unitsOf infinityMagnitude : ℚ) ≤ q) :
    NearestMagnitude q infinityMagnitude := by
  have hmono : ∀ i ≤ infinityMagnitude, (unitsOf i : ℚ) ≤ unitsOf infinityMagnitude :=
    fun i hi => by exact_mod_cast unitsOf_strictMono.monotone hi
  have hdistance : ∀ i ≤ infinityMagnitude, |q - unitsOf i| = q - unitsOf i := fun i hi =>
    abs_of_nonneg (by linarith [hmono i hi])
  refine ⟨Nat.le_refl _, fun i hi => ?_, fun i hi hne htie => ?_⟩
  · rw [hdistance _ (Nat.le_refl _), hdistance i hi]
    linarith [hmono i hi]
  · rw [hdistance _ (Nat.le_refl _), hdistance i hi] at htie
    exact absurd (by exact_mod_cast (by linarith : (unitsOf i : ℚ) = unitsOf infinityMagnitude)) hne

/-- In steps of `2 ^ k` units, what is nearest among the multiples of the step is nearest among all,
if nothing below the multiples with full significand comes into question. -/
theorem nearestMagnitude_step (hle : c ≤ 2 * binade) (hfull : binade ≤ c ∨ k = 0)
    (hq : 0 < k → (binade : ℚ) * 2 ^ k ≤ q)
    (hnearest : ∀ j : Nat, |q / 2 ^ k - c| ≤ |q / 2 ^ k - j|
      ∧ (j ≠ c → |q / 2 ^ k - j| = |q / 2 ^ k - c| → c % 2 = 0))
    (hbound : k * binade + c ≤ infinityMagnitude) : NearestMagnitude q (k * binade + c) := by
  have hstep : (0 : ℚ) < 2 ^ k := by positivity
  have hscale : ∀ j : Nat, |q - (j * 2 ^ k : Nat)| = |q / 2 ^ k - j| * 2 ^ k := by
    intro j
    rw [← abs_of_pos hstep, ← abs_mul, abs_of_pos hstep, sub_mul, div_mul_cancel₀ q hstep.ne']
    push_cast
    rfl
  -- A magnitude below the full significands of the step is farther away than the first of them.
  have hlow : ∀ i, 0 < k → unitsOf i < binade * 2 ^ k →
      |q - (c * 2 ^ k : Nat)| < |q - unitsOf i| := by
    intro i hk hi
    have hi' : (unitsOf i : ℚ) < binade * 2 ^ k := by exact_mod_cast hi
    have hbinade := (hnearest binade).1
    calc |q - (c * 2 ^ k : Nat)| ≤ |q - (binade * 2 ^ k : Nat)| := by
          rw [hscale, hscale]
          exact mul_le_mul_of_nonneg_right hbinade hstep.le
      _ = q - binade * 2 ^ k := by
          push_cast
          exact abs_of_nonneg (by linarith [hq hk])
      _ < q - unitsOf i := by linarith
      _ ≤ |q - unitsOf i| := le_abs_self _
  refine ⟨hbound, fun i _ => ?_, fun i _ hne htie => ?_⟩
  · rw [unitsOf_step_add hle hfull]
    rcases unitsOf_cases k i with ⟨j, hj⟩ | ⟨hk, hi⟩
    · rw [hj, hscale, hscale]
      exact mul_le_mul_of_nonneg_right (hnearest j).1 hstep.le
    · exact (hlow i hk hi).le
  · rw [unitsOf_step_add hle hfull] at hne htie
    rcases unitsOf_cases k i with ⟨j, hj⟩ | ⟨hk, hi⟩
    · rw [hj] at hne htie
      rw [hscale, hscale] at htie
      have hc := (hnearest j).2 (fun h => hne (by rw [h])) (mul_right_cancel₀ hstep.ne' htie)
      rw [Nat.add_mod, Nat.mul_mod, binade_eq]
      omega
    · exact absurd htie (hlow i hk hi).ne'

/-- What does not fit below infinity is rounded to infinity. -/
theorem nearestMagnitude_overflow (hle : c ≤ 2 * binade)
    (hq : 0 < k → (binade : ℚ) * 2 ^ k ≤ q) (hover : infinityMagnitude < k * binade + c) :
    NearestMagnitude q infinityMagnitude := by
  -- The significand makes two binades at most, so the step is that of infinity or a larger one.
  have hk : 2046 ≤ k := by
    have hmul : infinityMagnitude < (k + 2) * binade := by
      rw [Nat.add_mul]
      omega
    have := Nat.lt_of_mul_lt_mul_right hmul
    omega
  refine nearestMagnitude_infinity (le_trans ?_ (hq (by omega)))
  exact_mod_cast unitsOf_infinityMagnitude_le hk

/-- In its step, a fraction has 53 binary places at most. -/
theorem roundHalfEven_le_two_binades {scaled d : Nat} (hd : 0 < d)
    (hlog : (scaled / d).log2 ≤ k + 52) : roundHalfEven scaled (d * 2 ^ k) ≤ 2 * binade := by
  refine roundHalfEven_le ?_
  have hplaces : scaled / d < 2 ^ (k + 53) :=
    Nat.lt_of_lt_of_le Nat.lt_log2_self (Nat.pow_le_pow_right two_pos (by omega))
  rw [Nat.div_lt_iff_lt_mul hd] at hplaces
  calc scaled < 2 ^ (k + 53) * d := hplaces
    _ = d * 2 ^ k * (2 * binade) := by
        rw [binade_eq]
        ring

/-- In a step that is not the first, a fraction has 53 binary places. -/
theorem binade_mul_le_div {scaled d : Nat} (hd : 0 < d) (hlog : (scaled / d).log2 = k + 52) :
    (binade : ℚ) * 2 ^ k ≤ scaled / d := by
  have hself := Nat.log2_self_le (n := scaled / d) fun hzero => by
    rw [hzero, Nat.log2_zero] at hlog
    omega
  rw [hlog, Nat.add_comm, Nat.pow_add, ← binade_eq, Nat.le_div_iff_mul_le hd] at hself
  rw [le_div_iff₀ (by exact_mod_cast hd)]
  exact_mod_cast hself

/-- **The magnitude that is computed is the nearest.** -/
theorem nearestMagnitude_roundMagnitude (n : Nat) {d : Nat} (hd : 0 < d) :
    NearestMagnitude (n * one / d) (roundMagnitude n d) := by
  have hscaled : (n : ℚ) * one / d = (n * one : Nat) / d := by
    push_cast
    rfl
  rw [roundMagnitude, hscaled]
  generalize n * one = scaled
  generalize hk : (scaled / d).log2 - 52 = k
  rw [Nat.pow_eq]
  -- The step is chosen so that the significand has 53 places. Rounding may add one to the largest
  -- of them, and the result is then the first of the next step.
  have hlog : 0 < k → (scaled / d).log2 = k + 52 := by omega
  have hlarge : 0 < k → (binade : ℚ) * 2 ^ k ≤ scaled / d :=
    fun hpos => binade_mul_le_div hd (hlog hpos)
  have hcarry := roundHalfEven_le_two_binades hd (by omega : (scaled / d).log2 ≤ k + 52)
  have hfull : binade ≤ roundHalfEven scaled (d * 2 ^ k) ∨ k = 0 := by
    rcases Nat.eq_zero_or_pos k with hzero | hpos
    · exact Or.inr hzero
    · exact Or.inl (binade_le_roundHalfEven (hlog hpos))
  have hnearest := roundHalfEven_nearest scaled (Nat.mul_pos hd (Nat.two_pow_pos k))
  have hquotient : (scaled : ℚ) / (d * 2 ^ k : Nat) = scaled / d / 2 ^ k := by
    rw [div_div]
    push_cast
    rfl
  rw [hquotient] at hnearest
  by_cases hbound : k * binade + roundHalfEven scaled (d * 2 ^ k) ≤ infinityMagnitude
  · rw [Nat.min_eq_right hbound]
    exact nearestMagnitude_step hcarry hfull hlarge hnearest hbound
  · rw [Nat.min_eq_left (Nat.le_of_not_le hbound)]
    exact nearestMagnitude_overflow hcarry hlarge (Nat.lt_of_not_le hbound)

/-! ## The nearest number -/

/-- The value of a number, an infinity counting as `± 2 ^ 1024`. -/
def value (x : Binary64) : ℚ :=
  if x.isNegative then -(x.units / one : ℚ) else (x.units / one : ℚ)

/-- The number nearest to a rational; of two that are equally near, the even one. -/
structure IsNearest (r : ℚ) (x : Binary64) : Prop where
  isNumber : x.isNaN = false
  le : ∀ y : Binary64, y.isNaN = false → |r - x.value| ≤ |r - y.value|
  even : ∀ y : Binary64, y.isNaN = false → y.value ≠ x.value → |r - y.value| = |r - x.value| →
    x.magnitude % 2 = 0

/-- The magnitudes of numbers go up to infinity. -/
theorem isNaN_eq_false_iff : x.isNaN = false ↔ x.magnitude ≤ infinityMagnitude := by
  rw [isNaN, decide_eq_false_iff_not, Nat.not_lt]

/-- A quotient with a sign. -/
def signed (negative : Bool) (q : ℚ) : ℚ :=
  if negative then -q else q

theorem unitsOf_div_nonneg (m : Nat) : (0 : ℚ) ≤ unitsOf m / one :=
  div_nonneg (Nat.cast_nonneg _) cast_one_pos.le

theorem signed_zero (negative : Bool) : signed negative 0 = 0 := by
  rw [signed, neg_zero, ite_self]

/-- The value of a float is its units with its sign. -/
theorem value_eq (x : Binary64) : x.value = signed x.isNegative (unitsOf x.magnitude / one) := by
  rw [value, units_eq, signed]

/-- A float that is put together has the value of its parts. -/
theorem value_ofMagnitude (negative : Bool) (hm : m < signWeight) :
    (ofMagnitude negative m).value = signed negative (unitsOf m / one) := by
  rw [value_eq, isNegative_ofMagnitude negative hm, magnitude_ofMagnitude negative hm]

/-- A common sign does not change distances. -/
theorem abs_signed_sub_signed (negative : Bool) (a b : ℚ) :
    |signed negative a - signed negative b| = |a - b| := by
  cases negative with
  | false => rfl
  | true => exact neg_sub_neg a b ▸ abs_sub_comm b a

/-- With different signs, the distance is the sum of the sizes. -/
theorem abs_signed_sub_signed_of_ne {a b : ℚ} (ha : 0 ≤ a) (hb : 0 ≤ b) {s t : Bool}
    (hst : s ≠ t) : |signed s a - signed t b| = a + b := by
  cases s <;> cases t
  · exact absurd rfl hst
  · rw [signed, signed, if_neg Bool.false_ne_true, if_pos rfl, sub_neg_eq_add]
    exact abs_of_nonneg (add_nonneg ha hb)
  · rw [signed, signed, if_neg Bool.false_ne_true, if_pos rfl, ← neg_add', abs_neg]
    exact abs_of_nonneg (add_nonneg ha hb)
  · exact absurd rfl hst

/-- A number of the other sign is not nearer than its opposite. -/
theorem abs_sub_le_abs_signed_sub {a b : ℚ} (ha : 0 ≤ a) (hb : 0 ≤ b) (s t : Bool) :
    |a - b| ≤ |signed s a - signed t b| := by
  by_cases hst : s = t
  · rw [hst, abs_signed_sub_signed]
  · rw [abs_signed_sub_signed_of_ne ha hb hst, abs_le]
    constructor <;> linarith

/-- The nearest magnitude with the sign of the rational is the nearest number. -/
theorem NearestMagnitude.isNearest (negative : Bool) (hnonneg : 0 ≤ q)
    (h : NearestMagnitude q m) :
    IsNearest (signed negative (q / one)) (ofMagnitude negative m) := by
  have hone := cast_one_pos
  have hm : m < signWeight := Nat.lt_of_le_of_lt h.le_infinity infinityMagnitude_lt_signWeight
  have hvalue := value_ofMagnitude negative hm
  have hq : 0 ≤ q / one := div_nonneg hnonneg hone.le
  have hdistance : ∀ i, |q / one - unitsOf i / one| = |q - unitsOf i| / one := fun i => by
    rw [← sub_div, abs_div, abs_of_pos hone]
  refine ⟨?_, fun y hy => ?_, fun y hy hne htie => ?_⟩
  · rw [isNaN_eq_false_iff, magnitude_ofMagnitude negative hm]
    exact h.le_infinity
  · rw [isNaN_eq_false_iff] at hy
    rw [hvalue, abs_signed_sub_signed, value_eq]
    refine le_trans ?_ (abs_sub_le_abs_signed_sub hq (unitsOf_div_nonneg _) _ _)
    rw [hdistance, hdistance]
    exact div_le_div_of_nonneg_right (h.le _ hy) hone.le
  · rw [isNaN_eq_false_iff] at hy
    rw [magnitude_ofMagnitude negative hm]
    rw [hvalue, abs_signed_sub_signed, value_eq] at htie
    rw [hvalue, value_eq] at hne
    by_cases hsame : unitsOf y.magnitude = unitsOf m
    -- Opposite numbers are equally near to zero only, and then zero is nearer.
    · rw [hsame] at hne htie
      have hsign : negative ≠ y.isNegative := fun hsign => hne (by rw [hsign])
      rw [abs_signed_sub_signed_of_ne hq (unitsOf_div_nonneg m) hsign] at htie
      have hzero : |q / one - unitsOf m / one| ≤ q / one := by
        have hle := h.le 0 (Nat.zero_le _)
        rw [unitsOf_zero, Nat.cast_zero, sub_zero, abs_of_nonneg hnonneg] at hle
        rw [hdistance]
        exact div_le_div_of_nonneg_right hle hone.le
      have hnone : (unitsOf m : ℚ) / one = 0 := le_antisymm (by linarith) (unitsOf_div_nonneg m)
      exact absurd (by rw [hnone, signed_zero, signed_zero]) hne
    · refine h.even _ hy hsame (le_antisymm ?_ (h.le _ hy))
      have hle := abs_sub_le_abs_signed_sub hq (unitsOf_div_nonneg y.magnitude) negative
        y.isNegative
      rw [htie, hdistance, hdistance, div_le_div_iff_of_pos_right hone] at hle
      exact hle

/-- **A fraction is rounded to the nearest number.** -/
theorem isNearest_ofFraction (negative : Bool) (n : Nat) {d : Nat} (hd : 0 < d) :
    IsNearest (signed negative (n / d)) (ofFraction negative n d) := by
  have hq : (n : ℚ) / d = n * one / d / one := by
    rw [mul_div_right_comm, mul_div_assoc, div_self cast_one_pos.ne', mul_one]
  rw [hq]
  have hnonneg : (0 : ℚ) ≤ n * one / d :=
    div_nonneg (mul_nonneg (Nat.cast_nonneg n) (Nat.cast_nonneg one)) (Nat.cast_nonneg d)
  exact (nearestMagnitude_roundMagnitude n hd).isNearest negative hnonneg

/-- An integer is rounded to the nearest number. -/
theorem isNearest_ofInt (n : Int) : IsNearest n (ofInt n) := by
  have hn : (n : ℚ) = signed (decide (n < 0)) (n.natAbs / (1 : Nat)) := by
    rw [Nat.cast_one, div_one, Nat.cast_natAbs]
    by_cases hneg : n < 0
    · rw [decide_eq_true hneg, signed, if_pos rfl, abs_of_neg hneg, Int.cast_neg, neg_neg]
    · rw [decide_eq_false hneg, signed, if_neg Bool.false_ne_true, abs_of_nonneg (not_lt.mp hneg)]
  rw [ofInt, hn]
  exact isNearest_ofFraction _ _ Nat.one_pos

/-! ## Only one number is nearest -/

theorem abs_value (x : Binary64) : |x.value| = unitsOf x.magnitude / one := by
  have hnonneg := unitsOf_div_nonneg x.magnitude
  rw [value_eq, signed]
  split
  · rw [abs_neg, abs_of_nonneg hnonneg]
  · exact abs_of_nonneg hnonneg

/-- Sizes are in the order of magnitudes. -/
theorem abs_value_lt_iff : |x.value| < |y.value| ↔ x.magnitude < y.magnitude := by
  have hone := cast_one_pos
  rw [abs_value, abs_value, div_lt_div_iff_of_pos_right hone, Nat.cast_lt,
    unitsOf_strictMono.lt_iff_lt]

/-- Behind an even magnitude comes an odd one, so another even one is not reached yet. -/
theorem abs_value_next (negative : Bool) (hy : y.isNaN = false) (hxeven : x.magnitude % 2 = 0)
    (hyeven : y.magnitude % 2 = 0) (hlt : |x.value| < |y.value|) :
    ∃ (z : Binary64) (u : ℚ), z.isNaN = false ∧ z.value = signed negative u ∧ |x.value| < u
      ∧ u < |y.value| := by
  have hone := cast_one_pos
  rw [abs_value_lt_iff] at hlt
  rw [isNaN_eq_false_iff] at hy
  have hodd : x.magnitude + 1 < y.magnitude := by omega
  have hm : x.magnitude + 1 < signWeight :=
    (hodd.trans_le hy).trans infinityMagnitude_lt_signWeight
  refine ⟨ofMagnitude negative (x.magnitude + 1), _, ?_, value_ofMagnitude negative hm, ?_, ?_⟩
  · rw [isNaN_eq_false_iff, magnitude_ofMagnitude negative hm]
    exact (hodd.trans_le hy).le
  · rw [abs_value, div_lt_div_iff_of_pos_right hone]
    exact_mod_cast unitsOf_strictMono (Nat.lt_succ_self x.magnitude)
  · rw [abs_value, div_lt_div_iff_of_pos_right hone]
    exact_mod_cast unitsOf_strictMono hodd

/-- There is a number between two even ones. -/
theorem exists_value_between (hx : x.isNaN = false) (hy : y.isNaN = false)
    (hxeven : x.magnitude % 2 = 0) (hyeven : y.magnitude % 2 = 0) (hlt : x.value < y.value) :
    ∃ z : Binary64, z.isNaN = false ∧ x.value < z.value ∧ z.value < y.value := by
  -- Both on the positive side, both on the negative side, or zero lies between them.
  rcases le_or_gt 0 x.value with hxpos | hxneg
  · have hypos := hxpos.trans_lt hlt
    rw [← abs_of_nonneg hxpos, ← abs_of_nonneg hypos.le] at hlt ⊢
    obtain ⟨z, u, hz, hu, hlow, hhigh⟩ := abs_value_next false hy hxeven hyeven hlt
    exact ⟨z, hz, hu ▸ hlow, hu ▸ hhigh⟩
  rcases le_or_gt y.value 0 with hyneg | hypos
  · have hlt' : |y.value| < |x.value| := by
      rw [abs_of_nonpos hyneg, abs_of_neg hxneg]
      exact neg_lt_neg hlt
    obtain ⟨z, u, hz, hu, hlow, hhigh⟩ := abs_value_next true hx hyeven hxeven hlt'
    rw [abs_of_nonpos hyneg] at hlow
    rw [abs_of_neg hxneg] at hhigh
    refine ⟨z, hz, ?_, ?_⟩
    · rw [hu]
      exact lt_neg_of_lt_neg hhigh
    · rw [hu]
      exact neg_lt_of_neg_lt hlow
  · have hzero : (ofMagnitude false 0).value = 0 := by
      rw [value_ofMagnitude false (by decide), unitsOf_zero, Nat.cast_zero, zero_div, signed_zero]
    refine ⟨ofMagnitude false 0, by decide, ?_, ?_⟩
    · rw [hzero]
      exact hxneg
    · rw [hzero]
      exact hypos

/-- **The nearest number is one number,** up to the sign of zero. -/
theorem IsNearest.value_eq (hx : IsNearest r x) (hy : IsNearest r y) : x.value = y.value := by
  -- Two of them would both be even, and a number between them would be nearer than either.
  have hbetween : ∀ {a b : Binary64}, IsNearest r a → IsNearest r b → ¬ a.value < b.value := by
    intro a b ha hb hlt
    have hdistance := le_antisymm (ha.le b hb.isNumber) (hb.le a ha.isNumber)
    obtain ⟨z, hz, hlow, hhigh⟩ := exists_value_between ha.isNumber hb.isNumber
      (ha.even b hb.isNumber hlt.ne' hdistance.symm) (hb.even a ha.isNumber hlt.ne hdistance) hlt
    have hmiddle : r - a.value = -(r - b.value) :=
      (abs_eq_abs.mp hdistance).resolve_left fun h => hlt.ne (by linarith)
    have hnearer : |r - z.value| < |r - a.value| := by
      rw [abs_of_pos (by linarith : 0 < r - a.value), abs_lt]
      constructor <;> linarith
    exact absurd (ha.le z hz) (not_le.mpr hnearer)
  exact le_antisymm (not_lt.mp (hbetween hy hx)) (not_lt.mp (hbetween hx hy))

/-- A float is given by its sign and its magnitude. -/
theorem eq_of_isNegative_of_magnitude (hsign : x.isNegative = y.isNegative)
    (hm : x.magnitude = y.magnitude) : x.bits = y.bits := by
  have hx := x.bits.toNat_lt
  have hy := y.bits.toNat_lt
  have hweight : signWeight = 2 ^ 63 := rfl
  rw [isNegative, isNegative, decide_eq_decide] at hsign
  rw [magnitude, magnitude] at hm
  rw [hweight] at hsign hm
  exact UInt64.toNat_inj.mp (by omega)

/-- Floats of one value have one magnitude. -/
theorem magnitude_eq_of_value_eq (h : x.value = y.value) : x.magnitude = y.magnitude := by
  have hne : ∀ {a b : Binary64}, a.value = b.value → ¬ a.magnitude < b.magnitude := by
    intro a b hab hlt
    rw [← abs_value_lt_iff, hab] at hlt
    exact lt_irrefl _ hlt
  exact le_antisymm (not_lt.mp (hne h.symm)) (not_lt.mp (hne h))

/-- Numbers of one value are the same number, but for the sign of a zero. -/
theorem sameValue_of_value_eq (hx : x.isNaN = false) (hy : y.isNaN = false)
    (h : x.value = y.value) : x.sameValue y = true := by
  have hm := magnitude_eq_of_value_eq h
  rw [sameValue, hx, hy]
  by_cases hzero : x.magnitude = 0
  · simp [hzero, ← hm]
  · have hsign : x.isNegative = y.isNegative := by
      -- With two signs the values can be equal at zero only.
      by_contra hne
      have hsum := abs_signed_sub_signed_of_ne (unitsOf_div_nonneg y.magnitude)
        (unitsOf_div_nonneg y.magnitude) hne
      rw [value_eq, value_eq, hm] at h
      rw [h, sub_self, abs_zero, ← abs_value] at hsum
      have hy0 : ¬ |(ofMagnitude false 0).value| < |y.value| := by
        have := abs_nonneg (ofMagnitude false 0).value
        linarith
      rw [abs_value_lt_iff, magnitude_ofMagnitude false (by decide)] at hy0
      omega
    simp [eq_of_isNegative_of_magnitude hsign hm]

/-! ## Infinity is far away -/

/-- Infinity counts as the first power of two beyond all floats. -/
theorem two_pow_1024_le_abs_value (h : x.magnitude = infinityMagnitude) : 2 ^ 1024 ≤ |x.value| := by
  have hunits := le_units_infinity false (Nat.le_refl 1024)
  rw [units_eq, magnitude_ofMagnitude false infinityMagnitude_lt_signWeight] at hunits
  rw [abs_value, h, le_div_iff₀ cast_one_pos]
  exact_mod_cast hunits

theorem value_zero : (ofMagnitude false 0).value = 0 := by
  rw [value_ofMagnitude false (by decide), unitsOf_zero, Nat.cast_zero, zero_div, signed_zero]

/-- Infinity is nearest to large numbers only: zero is nearer to all others. -/
theorem IsNearest.isFinite {r : ℚ} (h : IsNearest r x) (hr : |r| < 2 ^ 1023) :
    x.isFinite = true := by
  by_contra hinfinite
  have hle := isNaN_eq_false_iff.mp h.isNumber
  rw [Binary64.isFinite, decide_eq_true_eq] at hinfinite
  have hlarge := two_pow_1024_le_abs_value (by omega : x.magnitude = infinityMagnitude)
  have hzero := h.le (ofMagnitude false 0) (by decide)
  rw [value_zero, sub_zero] at hzero
  have htriangle := abs_sub_abs_le_abs_sub x.value r
  rw [abs_sub_comm] at htriangle
  rw [pow_succ'] at hlarge
  generalize (2 : ℚ) ^ 1023 = half at *
  linarith

/-- Every 64-bit integer is a finite float. -/
theorem isFinite_ofInt64 (k : Int64) : (ofInt k.toInt).isFinite = true := by
  have hlow := Int64.le_toInt k
  have hhigh := Int64.toInt_lt k
  apply (isNearest_ofInt k.toInt).isFinite
  have hle : |(k.toInt : ℚ)| ≤ 2 ^ 63 := by
    rw [abs_le]
    constructor
    · exact_mod_cast hlow
    · exact_mod_cast hhigh.le
  exact hle.trans_lt (pow_lt_pow_right₀ (by norm_num) (by norm_num))

/-- A number that is not finite is infinite. -/
theorem isFinite_eq_false_iff (h : x.isNaN = false) :
    x.isFinite = false ↔ x.magnitude = infinityMagnitude := by
  rw [isNaN_eq_false_iff] at h
  rw [isFinite, decide_eq_false_iff_not]
  omega

end Binary64

end SqlTemplate
