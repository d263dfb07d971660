import SqlTemplate.Format
import SqlTemplate.Json.Number
import SqlTemplate.Proofs.Binary64.PowersOfTwo
import SqlTemplate.Proofs.Format.NumberCharacters
import SqlTemplate.Proofs.Json.Steps

/-!
Integers among the numbers of JSON.

A numeral without point and exponent is an integer as long as 64 bits hold it, and a float beyond
that. The float is not always the nearest one, but the digits that are kept and the power of ten for
those that are not are each at least a power of two, and together they reach `2 ^ 63`. So rounded
back to an integer, the float is clamped to the same end as the integer that was written
(`toInt64?_of_numberValue?`).
-/

set_option autoImplicit false

namespace SqlTemplate.Json

open Decimal (ofDigits digitValue)

variable {digits : List Char}

/-! ## Reading -/

theorem isNumberChar_of_isDigit {c : Char} (h : c.isDigit = true) : isNumberChar c = true := by
  rw [isNumberChar, h]
  rfl

/-- The characters of a number are collected one by one. -/
theorem run_number {text : List Char} (frames : List Frame) (content : List Char)
    (h : ∀ c ∈ text, isNumberChar c = true) :
    run ⟨frames, .number content⟩ text = some ⟨frames, .number (text.reverse ++ content)⟩ := by
  induction text generalizing content with
  | nil => rfl
  | cons c rest ih =>
    rw [List.forall_mem_cons] at h
    have hstep : step ⟨frames, .number content⟩ c = some ⟨frames, .number (c :: content)⟩ :=
      if_pos h.1
    rw [run_cons, hstep, List.reverse_cons, List.append_assoc]
    exact ih (c :: content) h.2

/-- A number at the end of a text is complete. -/
theorem finish_number (content : List Char) :
    finish ⟨[], .number content⟩ = (readNumber? content.reverse).map .number := by
  rw [finish]
  dsimp only
  rw [completeNumber]
  cases readNumber? content.reverse <;> rfl

/-! ## Digits -/

/-- The number that digits denote behind a number that is kept. -/
def ofDigitsFrom (kept : Nat) (digits : List Char) : Nat :=
  digits.foldl (fun n c => 10 * n + digitValue c) kept

/-- Further digits make no number smaller. -/
theorem le_ofDigitsFrom (kept : Nat) (digits : List Char) : kept ≤ ofDigitsFrom kept digits := by
  induction digits generalizing kept with
  | nil => exact Nat.le_refl _
  | cons c rest ih =>
    have hrest := ih (10 * kept + digitValue c)
    rw [ofDigitsFrom, List.foldl_cons]
    exact Nat.le_trans (by omega) hrest

/-- All digits are kept, or the next one would not have fitted. -/
theorem keepDigits_cases (kept : Nat) (hdigits : ∀ c ∈ digits, c.isDigit = true) :
    keepDigits kept digits = (ofDigitsFrom kept digits, [])
      ∨ ∃ most left, keepDigits kept digits = (most, left) ∧ left ≠ []
        ∧ UInt64.size ≤ 10 * most + 9 ∧ UInt64.size ≤ ofDigitsFrom kept digits := by
  induction digits generalizing kept with
  | nil => exact Or.inl rfl
  | cons c rest ih =>
    rw [List.forall_mem_cons] at hdigits
    rw [keepDigits]
    by_cases hfits : 10 * kept + digitValue c < UInt64.size
    · rw [if_pos hfits]
      exact ih _ hdigits.2
    · -- The digit that does not fit is nine at most, and those behind it only add to the number.
      rw [if_neg hfits]
      have hbeyond := Nat.le_of_not_lt hfits
      have hc := Decimal.digitValue_le_nine hdigits.1
      have hle := le_ofDigitsFrom (10 * kept + digitValue c) rest
      exact Or.inr ⟨kept, c :: rest, rfl, List.cons_ne_nil _ _, by omega, Nat.le_trans hbeyond hle⟩

/-- What is kept of an integer, and the power of ten for what is not. -/
theorem keptDecimal_cases {n : Numeral} (hintegral : n.isIntegral = true)
    (hwhole : ∀ c ∈ n.whole, c.isDigit = true) :
    keptDecimal n = ⟨ofDigits n.whole, (0 : Nat)⟩
      ∨ ∃ most k, keptDecimal n = ⟨most, (k + 1 : Nat)⟩ ∧ 2 ^ 60 ≤ most
        ∧ UInt64.size ≤ ofDigits n.whole := by
  rw [Numeral.isIntegral, Bool.and_eq_true, Option.isNone_iff_eq_none,
    Option.isNone_iff_eq_none] at hintegral
  have hkept : keptDecimal n
      = ⟨(keepDigits 0 n.whole).1, (keepDigits 0 n.whole).2.length⟩ := by
    rw [keptDecimal, Numeral.fractionDigits, hintegral.1, hintegral.2]
    simp [keepDigits]
  rw [hkept]
  rcases keepDigits_cases 0 hwhole with hall | ⟨most, left, hsome, hne, hmost, hsize⟩
  · rw [hall]
    exact Or.inl rfl
  · obtain ⟨k, hk⟩ := Nat.exists_eq_add_one_of_ne_zero fun h => hne (List.length_eq_zero_iff.mp h)
    rw [hsome, hk]
    rw [UInt64.size] at hmost
    exact Or.inr ⟨most, k, rfl, by omega, hsize⟩

/-! ## Floats of integers -/

/-- The order of a power of ten is its exponent. -/
theorem order_powerOfTen (k : Nat) : Decimal.order ⟨1, k⟩ = k := by
  have hcount : Decimal.digitCount 1 = 1 := by
    rw [Decimal.digitCount, Decimal.digits_of_lt_ten (by decide), List.length_singleton]
  show (Decimal.digitCount 1 : Int) + k - 1 = k
  rw [hcount]
  omega

/-- A power of ten reaches the powers of two below it. -/
theorem le_units_powerOfTen {j k : Nat} (hj : j ≤ 1024) (hk : k ≤ 308) (h : 2 ^ j ≤ 10 ^ k) :
    2 ^ j * Binary64.one ≤ (powerOfTen k).units := by
  have hsmall : ¬ ((1 : Nat) = 0 ∨ (k : Int) < -324) := by omega
  have hlarge : ¬ 309 ≤ (k : Int) := by omega
  rw [powerOfTen, Binary64.ofDecimal, order_powerOfTen, if_neg hsmall, if_neg hlarge]
  apply Binary64.le_units_ofFraction false (Nat.pow_pos (by decide)) hj
  rw [Decimal.fraction]
  simpa using h

/-- The digits and the power of ten bound the float from below, an infinite one too. -/
theorem le_units_scaledFloat {most i j k p : Nat} (hsum : i + j = p) (hp : p ≤ 1024)
    (hi : 2 ^ i ≤ most) (hj : 2 ^ j ≤ 10 ^ k) :
    2 ^ p * Binary64.one ≤ (scaledFloat ⟨most, k⟩).units := by
  have hpos : most ≠ 0 := Nat.ne_of_gt (Nat.lt_of_lt_of_le (Nat.two_pow_pos i) hi)
  rw [scaledFloat]
  by_cases hlarge : 308 < (k : Int)
  · -- The power of ten is no float; what stands for the number is infinite and reads as `2 ^ 1024`.
    rw [if_pos hlarge, if_neg hpos]
    exact Binary64.le_units_infinity false hp
  · rw [if_neg hlarge, if_pos (Int.natCast_nonneg k), Int.toNat_natCast]
    subst hsum
    have hdigits := Binary64.le_units_ofInt (n := most) (Nat.le_trans (Nat.le_add_right i j) hp) hi
    have hpower := le_units_powerOfTen (Nat.le_trans (Nat.le_add_left j i) hp) (by omega) hj
    exact Binary64.le_units_product hp hdigits hpower

/-- An integer beyond 64 bits is a float beyond them. -/
theorem le_units_of_isIntegral {n : Numeral} (hintegral : n.isIntegral = true)
    (hwhole : ∀ c ∈ n.whole, c.isDigit = true) (h : 2 ^ 63 ≤ ofDigits n.whole) :
    2 ^ 63 * Binary64.one ≤ (scaledFloat (keptDecimal n)).units := by
  rcases keptDecimal_cases hintegral hwhole with hall | ⟨most, k, hsome, hmost, -⟩
  · rw [hall]
    have hone : 2 ^ 0 ≤ 10 ^ 0 := Nat.le_refl 1
    exact le_units_scaledFloat (Nat.add_zero 63) (by decide) h hone
  · -- Sixty places are kept at least, and one more digit is worth three of them.
    rw [hsome]
    have hten : 2 ^ 3 ≤ 10 ^ (k + 1) :=
      calc 2 ^ 3 ≤ 10 ^ 1 := by decide
        _ ≤ 10 ^ (k + 1) := Nat.pow_le_pow_right (by decide) (Nat.le_add_left 1 k)
    exact le_units_scaledFloat (rfl : 60 + 3 = 63) (by decide) hmost hten

/-- A float that is read has the sign of the numeral and the size of what is kept of it. -/
theorem of_floatOf?_eq_some {n : Numeral} {x : Binary64} (h : floatOf? n = some x) :
    x.isNegative = n.negative ∧ x.isNaN = false
      ∧ x.magnitude = (scaledFloat (keptDecimal n)).magnitude := by
  rw [floatOf?] at h
  split at h
  · rename_i hfinite
    obtain rfl := Option.some.inj h
    have hlt := Binary64.magnitude_lt_signWeight (scaledFloat (keptDecimal n))
    have hmagnitude := Binary64.magnitude_ofMagnitude n.negative hlt
    refine ⟨Binary64.isNegative_ofMagnitude n.negative hlt, ?_, hmagnitude⟩
    rw [Binary64.isFinite, decide_eq_true_eq] at hfinite
    rw [Binary64.isNaN, hmagnitude]
    exact decide_eq_false (by omega)
  · exact absurd h (by simp)

/-! ## Values of integers -/

theorem magnitude_scaledFloat_zero : (scaledFloat ⟨0, (0 : Nat)⟩).magnitude = 0 := by
  decide +kernel

/-- A float of an integer is zero, or at least as far from zero as `2 ^ 63`. -/
theorem toInt64_of_floatOf? {n : Numeral} {x : Binary64} (hintegral : n.isIntegral = true)
    (hwhole : ∀ c ∈ n.whole, c.isDigit = true) (h : floatOf? n = some x)
    (hsize : ofDigits n.whole = 0 ∨ 2 ^ 63 ≤ ofDigits n.whole) :
    x.toInt64 = clampToInt64 n.wholeInt := by
  obtain ⟨hnegative, hnumber, hmagnitude⟩ := of_floatOf?_eq_some h
  rcases hsize with hzero | hlarge
  · have hkept : keptDecimal n = ⟨0, (0 : Nat)⟩ := by
      rcases keptDecimal_cases hintegral hwhole with hall | ⟨most, k, -, -, hbeyond⟩
      · rw [hall, hzero]
      · rw [hzero] at hbeyond
        exact absurd hbeyond (by decide)
    have hunits : x.units = 0 := by
      rw [Binary64.units, hmagnitude, hkept, magnitude_scaledFloat_zero]
      rfl
    rw [Binary64.toInt64, hnumber, if_neg Bool.false_ne_true, Binary64.truncate, hunits,
      Numeral.wholeInt, hzero, Nat.zero_div]
    split <;> split <;> rfl
  -- From `2 ^ 63` on the float stays that large, so its integer is the end of the range.
  · have hunits : 2 ^ 63 * Binary64.one ≤ x.units := by
      rw [Binary64.units, hmagnitude]
      exact le_units_of_isIntegral hintegral hwhole hlarge
    rw [Binary64.toInt64_of_two_pow_63_le hnumber hunits hlarge, hnegative]
    rfl

/-- **An integer that has a value counts as what it denotes,** clamped to 64 bits. -/
theorem toInt64?_of_numberValue? {n : Numeral} {value : Value} (hintegral : n.isIntegral = true)
    (hwhole : ∀ c ∈ n.whole, c.isDigit = true) (h : numberValue? n = some value) :
    value.toInt64? = some (clampToInt64 n.wholeInt) := by
  rw [numberValue?] at h
  by_cases hinteger : n.isIntegral = true
      ∧ (Int64.minValue.toInt ≤ n.wholeInt ∧ n.wholeInt ≤ Int64.maxValue.toInt)
      ∧ ¬ (n.negative = true ∧ n.wholeInt = 0)
  · rw [integerOf?, if_pos hinteger] at h
    rw [← Option.some.inj h, clampToInt64_of_mem_range hinteger.2.1.1 hinteger.2.1.2]
    rfl
  · rw [integerOf?, if_neg hinteger] at h
    obtain ⟨x, hx, rfl⟩ := Option.map_eq_some_iff.mp h
    -- Only minus zero is in range and no integer.
    have hsize : ofDigits n.whole = 0 ∨ 2 ^ 63 ≤ ofDigits n.whole := by
      by_contra hbetween
      have hmin : Int64.minValue.toInt = -2 ^ 63 := by decide
      have hmax : Int64.maxValue.toInt = 2 ^ 63 - 1 := by decide
      rw [Numeral.wholeInt] at hinteger
      refine hinteger ⟨hintegral, ?_, ?_⟩
      · split <;> omega
      · rintro ⟨hnegative, hzero⟩
        rw [if_pos hnegative] at hzero
        omega
    rw [Value.toInt64?, toInt64_of_floatOf? hintegral hwhole hx hsize]

end SqlTemplate.Json
