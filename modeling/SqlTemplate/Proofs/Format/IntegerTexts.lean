import SqlTemplate.Proofs.Binary64.Decimals
import SqlTemplate.Proofs.CommandLine.IntegerArguments
import SqlTemplate.Proofs.Format.LeadingNumbers

/-!
What the integer marker writes.

Every truth value, number and text is written at the integer marker, as an integer of 64 bits in
decimal. `Value.CountsAs` says which one: numbers are rounded toward zero and clamped to the range,
text counts by its leading number, an integral one exactly and any other by the float that is
nearest to it. The text that is written is canonical, and as text at the same marker it is written
again as it is (`integer_marker_writes`).

One thing stands in the way of "nearest to the number that is written": an exponent from 655,360 on
is not read to its end. It shows only where more than 65,000 digits stand before the exponent to
make up for it (`cut_exponent_counts_as_less`).
-/

set_option autoImplicit false

namespace SqlTemplate

open Decimal (ofDigits)

/-! ## Canonical integers -/

/-- The text of an integer in decimal, without leading zeros; zero has no sign. -/
inductive CanonicalInteger : Int → List Char → Prop where
  | zero : CanonicalInteger 0 ['0']
  | positive {d : Char} {rest : List Char} (hd : d ≠ '0')
    (hdigits : ∀ c ∈ d :: rest, c.isDigit = true) :
    CanonicalInteger (ofDigits (d :: rest)) (d :: rest)
  | negative {d : Char} {rest : List Char} (hd : d ≠ '0')
    (hdigits : ∀ c ∈ d :: rest, c.isDigit = true) :
    CanonicalInteger (-ofDigits (d :: rest)) ('-' :: d :: rest)

/-- The digit of a number other than zero is another digit. -/
theorem Decimal.digit_ne_zero {k : Nat} (h : k < 10) (hk : k ≠ 0) : digit k ≠ '0' := by
  have hall : ∀ j : Fin 10, j.val ≠ 0 → digit j ≠ '0' := by decide
  exact hall ⟨k, h⟩ hk

/-- The first digit of a number other than zero is not zero. -/
theorem exists_cons_digits {n : Nat} (hn : n ≠ 0) :
    ∃ d rest, Decimal.digits n = d :: rest ∧ d ≠ '0' := by
  induction n using Nat.strongRecOn with
  | _ n ih =>
    by_cases hlt : n < 10
    · exact ⟨Decimal.digit n, [], Decimal.digits_of_lt_ten hlt, Decimal.digit_ne_zero hlt hn⟩
    · obtain ⟨d, rest, hdigits, hd⟩ := ih (n / 10) (by omega) (by omega)
      rw [Decimal.digits_of_ten_le (by omega), hdigits]
      exact ⟨d, _, List.cons_append, hd⟩

/-- The text of an integer is canonical. -/
theorem canonicalInteger_integerText (k : Int) :
    CanonicalInteger k (Decimal.integerText k).toList := by
  rw [Decimal.integerText, String.toList_ofList]
  by_cases hzero : k = 0
  · have hdigits : Decimal.digits 0 = ['0'] := Decimal.digits_of_lt_ten (by decide)
    rw [hzero, if_neg (by decide), Int.natAbs_zero, hdigits]
    exact .zero
  -- The first digit of what is not zero is not zero, whatever the sign.
  obtain ⟨d, rest, hcons, hd⟩ := exists_cons_digits (by omega : k.natAbs ≠ 0)
  have hdigits := Decimal.isDigit_of_mem_digits k.natAbs
  have hvalue := Decimal.ofDigits_digits k.natAbs
  rw [hcons] at hdigits hvalue ⊢
  by_cases hneg : k < 0
  · rw [if_pos hneg]
    have hk : k = -(ofDigits (d :: rest) : Int) := by omega
    rw [hk]
    exact .negative hd hdigits
  · rw [if_neg hneg]
    have hk : k = (ofDigits (d :: rest) : Int) := by omega
    rw [hk]
    exact .positive hd hdigits

/-- A canonical text denotes its integer. -/
theorem CanonicalInteger.denotes {k : Int} {text : List Char} (h : CanonicalInteger k text) :
    CommandLine.DenotesInteger text k := by
  cases h with
  | zero => exact .unsigned (List.cons_ne_nil _ _) (List.forall_mem_singleton.mpr rfl)
  | positive hd hdigits => exact .unsigned (List.cons_ne_nil _ _) hdigits
  | negative hd hdigits => exact .minus (List.cons_ne_nil _ _) hdigits

/-- The canonical text `0` is that of zero. -/
theorem CanonicalInteger.eq_zero {k : Int} {text : List Char} (h : CanonicalInteger k text)
    (htext : text = ['0']) : k = 0 := by
  cases h with
  | zero => rfl
  | positive hd => exact absurd (List.cons.inj htext).1 hd
  | negative => exact absurd (List.cons.inj htext).1 (by decide)

/-! ## Rounding toward zero -/

/-- A rational without its places behind the point. -/
def towardZero (r : ℚ) : Int :=
  if r < 0 then ⌈r⌉ else ⌊r⌋

/-- The integer of 64 bits that is nearest to an integer. -/
def nearestInt64 (k : Int) : Int :=
  max (-2 ^ 63) (min (2 ^ 63 - 1) k)

/-- An integer in range is its own nearest one. -/
theorem nearestInt64_of_mem {k : Int} (hlow : -2 ^ 63 ≤ k) (hhigh : k ≤ 2 ^ 63 - 1) :
    nearestInt64 k = k := by
  rw [nearestInt64]
  omega

/-- Above the range the largest integer is nearest. -/
theorem nearestInt64_of_gt {k : Int} (h : 2 ^ 63 - 1 < k) : nearestInt64 k = 2 ^ 63 - 1 := by
  rw [nearestInt64]
  omega

/-- Below the range the smallest integer is nearest. -/
theorem nearestInt64_of_lt {k : Int} (h : k < -2 ^ 63) : nearestInt64 k = -2 ^ 63 := by
  rw [nearestInt64]
  omega

/-- Clamping gives the nearest integer in range. -/
theorem toInt_clampToInt64_eq (k : Int) : (clampToInt64 k).toInt = nearestInt64 k :=
  toInt_clampToInt64 k

namespace Binary64

variable {x y : Binary64}

/-- Truncating is rounding the value toward zero. -/
theorem truncate_eq (x : Binary64) : x.truncate = towardZero x.value := by
  have hfloor : ⌊(x.units : ℚ) / one⌋ = (x.units / one : Nat) :=
    Rat.floor_natCast_div_natCast x.units one
  have hnonneg : (0 : ℚ) ≤ x.units / one := div_nonneg (Nat.cast_nonneg _) cast_one_pos.le
  rw [truncate, value]
  split
  · rw [towardZero]
    split
    · rw [Int.ceil_neg, hfloor]
    · rename_i hzero
      have hnone : (x.units : ℚ) / one = 0 := by linarith
      rw [← hfloor, hnone]
      rfl
  · rw [towardZero, if_neg (not_lt.mpr hnonneg), hfloor]

/-- As an integer, a number is rounded toward zero and clamped. -/
theorem toInt64_toInt_of_isNaN_eq_false (h : x.isNaN = false) :
    x.toInt64.toInt = nearestInt64 (towardZero x.value) := by
  rw [toInt64, h, if_neg Bool.false_ne_true, toInt_clampToInt64_eq, truncate_eq]

/-- An infinity is clamped to the end of the range that has its sign. -/
theorem toInt64_toInt_infinite (h : x.magnitude = infinityMagnitude) :
    x.toInt64.toInt = if x.isNegative then -2 ^ 63 else 2 ^ 63 - 1 := by
  have hnumber : x.isNaN = false := isNaN_eq_false_iff.mpr h.le
  have hunits : 2 ^ 63 * one ≤ x.units := by
    refine le_units_of_le_magnitude ?_
    rw [h]
    exact Nat.mul_le_mul_right binade (by decide)
  rw [toInt64_of_two_pow_63_le hnumber hunits (le_refl (2 ^ 63)), toInt_clampToInt64_eq]
  split <;> rfl

end Binary64

/-! ## The integer of a value -/

open Binary64 (IsNearest)

/-- The integer that a truth value, a number or a text counts as. -/
inductive Value.CountsAs : Value → Int → Prop where
  | bool {truth : Bool} : CountsAs (.bool truth) (if truth then 1 else 0)
  | int {number : Int64} : CountsAs (.int number) number.toInt
  | notANumber {x : Binary64} (h : x.isNaN = true) : CountsAs (.float x) 0
  | infinite {x : Binary64} (h : x.magnitude = Binary64.infinityMagnitude) :
    CountsAs (.float x) (if x.isNegative then -2 ^ 63 else 2 ^ 63 - 1)
  | finite {x : Binary64} (h : x.isFinite = true) :
    CountsAs (.float x) (nearestInt64 (towardZero x.value))
  | numberless {s : String} (h : LeadingNumber.Absent s) : CountsAs (.text s) 0
  /-- Without point and exponent, the integer itself. -/
  | integral {s : String} {n : Numeral} {k : Int} (hn : n.Leads s) (h : n.isIntegral = true)
    (hk : n.value = k) : CountsAs (.text s) (nearestInt64 k)
  /-- Any other number, as the float that is nearest to it. -/
  | nearest {s : String} {n : Numeral} {x : Binary64} {k : Int} (hn : n.Leads s)
    (h : n.isIntegral = false) (hfull : n.ReadInFull) (hx : IsNearest n.value x)
    (hk : CountsAs (.float x) k) : CountsAs (.text s) k
  /-- The digits of a very large exponent that do not count are left out. -/
  | cut {s : String} {n : Numeral} {x : Binary64} {k : Int} (hn : n.Leads s)
    (h : n.isIntegral = false) (hcut : ¬ n.ReadInFull) (hx : IsNearest n.countedValue x)
    (hk : CountsAs (.float x) k) : CountsAs (.text s) k

namespace Value

variable {x : Binary64} {v : Value} {k : Int}

/-- A float counts as the integer that it is converted to. -/
theorem countsAs_float (x : Binary64) : CountsAs (.float x) x.toInt64.toInt := by
  rcases Nat.lt_trichotomy x.magnitude Binary64.infinityMagnitude with hlt | heq | hgt
  · rw [Binary64.toInt64_toInt_of_isNaN_eq_false (Binary64.isNaN_eq_false_iff.mpr hlt.le)]
    exact .finite (decide_eq_true hlt)
  · rw [Binary64.toInt64_toInt_infinite heq]
    exact .infinite heq
  · have hnan : x.isNaN = true := decide_eq_true hgt
    rw [Binary64.toInt64, hnan, if_pos rfl]
    exact .notANumber hnan

theorem eq_of_countsAs_float (h : CountsAs (.float x) k) : k = x.toInt64.toInt := by
  cases h with
  | notANumber hnan =>
    rw [Binary64.toInt64, hnan, if_pos rfl]
    rfl
  | infinite hinfinite => exact (Binary64.toInt64_toInt_infinite hinfinite).symm
  | finite hfinite =>
    have hlt : x.magnitude < Binary64.infinityMagnitude := of_decide_eq_true hfinite
    exact (Binary64.toInt64_toInt_of_isNaN_eq_false
      (Binary64.isNaN_eq_false_iff.mpr hlt.le)).symm

/-- Numbers that are nearest to the same rational count as the same integer. -/
theorem toInt64_eq_of_isNearest {r : ℚ} {y : Binary64} (hx : IsNearest r x) (hy : IsNearest r y) :
    x.toInt64.toInt = y.toInt64.toInt := by
  rw [Binary64.toInt64_toInt_of_isNaN_eq_false hx.isNumber,
    Binary64.toInt64_toInt_of_isNaN_eq_false hy.isNumber, hx.value_eq hy]

/-- A text counts as its leading number. -/
theorem toInt64?_text_of_leads {s : String} {n : Numeral} (hn : n.Leads s) :
    (Value.text s).toInt64? = some n.toInt64 := by
  rw [toInt64?, LeadingNumber.ofText?_eq_some_iff.mpr hn, Option.elim_some]

/-- The integer of a value is the one that is computed. -/
theorem CountsAs.toInt64? (h : v.CountsAs k) : ∃ i, v.toInt64? = some i ∧ i.toInt = k := by
  cases h with
  | bool => exact ⟨_, rfl, by split <;> rfl⟩
  | int => exact ⟨_, rfl, rfl⟩
  | notANumber h => exact ⟨_, rfl, (eq_of_countsAs_float (.notANumber h)).symm⟩
  | infinite h => exact ⟨_, rfl, (eq_of_countsAs_float (.infinite h)).symm⟩
  | finite h => exact ⟨_, rfl, (eq_of_countsAs_float (.finite h)).symm⟩
  -- A text counts as its leading number if it has one, and as zero else.
  | numberless h =>
    refine ⟨0, ?_, rfl⟩
    rw [Value.toInt64?, LeadingNumber.ofText?_eq_none_iff.mpr h, Option.elim_none]
  | @integral s n j hn h hk =>
    refine ⟨_, toInt64?_text_of_leads hn, ?_⟩
    rw [Numeral.value_of_isIntegral h, Int.cast_inj] at hk
    rw [Numeral.toInt64, if_pos h, toInt_clampToInt64_eq, hk]
  | nearest hn h hfull hx hk =>
    refine ⟨_, toInt64?_text_of_leads hn, ?_⟩
    rw [Numeral.toInt64, if_neg (by rw [h]; exact Bool.false_ne_true), eq_of_countsAs_float hk]
    exact toInt64_eq_of_isNearest (Numeral.isNearest_value hn.isDigit hfull) hx
  | cut hn h hcut hx hk =>
    refine ⟨_, toInt64?_text_of_leads hn, ?_⟩
    rw [Numeral.toInt64, if_neg (by rw [h]; exact Bool.false_ne_true), eq_of_countsAs_float hk]
    exact toInt64_eq_of_isNearest (Numeral.isNearest_countedValue _) hx

/-- Every value that has an integer counts as it. -/
theorem countsAs_of_toInt64? {i : Int64} (h : v.toInt64? = some i) : v.CountsAs i.toInt := by
  cases v with
  | null | sequence | mapping | skip => exact absurd h (by simp [Value.toInt64?])
  | bool truth =>
    obtain rfl := Option.some.inj h
    have hbool : (Value.bool truth).CountsAs (if truth then 1 else 0) := .bool
    cases truth <;> exact hbool
  | int number =>
    obtain rfl := Option.some.inj h
    exact .int
  | float x =>
    obtain rfl := Option.some.inj h
    exact countsAs_float x
  | text s =>
    cases hn : LeadingNumber.ofText? s with
    | none =>
      rw [Value.toInt64?, hn, Option.elim_none] at h
      obtain rfl := Option.some.inj h
      exact .numberless (LeadingNumber.ofText?_eq_none_iff.mp hn)
    | some n =>
      rw [LeadingNumber.ofText?_eq_some_iff] at hn
      rw [toInt64?_text_of_leads hn] at h
      obtain rfl := Option.some.inj h
      rw [Numeral.toInt64]
      -- An integer is clamped; other numbers go by the float that their exponent is read as.
      by_cases hintegral : n.isIntegral = true
      · rw [if_pos hintegral, toInt_clampToInt64_eq]
        exact .integral hn hintegral (Numeral.value_of_isIntegral hintegral)
      · rw [if_neg hintegral]
        rw [Bool.not_eq_true] at hintegral
        by_cases hfull : n.ReadInFull
        · exact .nearest hn hintegral hfull (Numeral.isNearest_value hn.isDigit hfull)
            (countsAs_float _)
        · exact .cut hn hintegral hfull n.isNearest_countedValue (countsAs_float _)

end Value

/-! ## The integer marker -/

/-- A truth value, a number or a text. -/
inductive Value.IsScalar : Value → Prop where
  | bool {truth : Bool} : IsScalar (.bool truth)
  | int {number : Int64} : IsScalar (.int number)
  | float {number : Binary64} : IsScalar (.float number)
  | text {content : String} : IsScalar (.text content)

/-- Every scalar counts as an integer. -/
theorem Value.IsScalar.exists_toInt64? {v : Value} (hv : v.IsScalar) :
    ∃ i, v.toInt64? = some i := by
  cases hv with
  | bool | int | float | text => exact ⟨_, rfl⟩

/-- **What the integer marker writes.** A truth value, a number or a text counts as one integer of
64 bits. The marker writes it as canonical text, and writes this text again as it is. -/
theorem integer_marker_writes (escape : Escaper) {v : Value} (hv : v.IsScalar) :
    ∃ k w, (∀ j, v.CountsAs j ↔ j = k) ∧ -2 ^ 63 ≤ k ∧ k ≤ 2 ^ 63 - 1
      ∧ CanonicalInteger k w.toList ∧ Marker.integer.format escape v = .ok w
      ∧ Marker.integer.format escape (.text w) = .ok w := by
  obtain ⟨i, hi⟩ := hv.exists_toInt64?
  have hlow := Int64.le_toInt i
  have hhigh := Int64.toInt_lt i
  have hcanonical := canonicalInteger_integerText i.toInt
  -- What is written denotes the integer, which is in range and stays as it is.
  have hagain : (Value.text (Decimal.integerText i.toInt)).toInt64? = some i := by
    rw [CommandLine.toInt64?_text hcanonical.denotes]
    refine congrArg some (Int64.toInt_inj.mp ?_)
    rw [toInt_clampToInt64_eq, nearestInt64_of_mem hlow (by omega)]
  refine ⟨i.toInt, Decimal.integerText i.toInt, fun j => ⟨fun hj => ?_, ?_⟩, hlow, by omega,
    hcanonical, CommandLine.format_integer_of_some escape hi,
    CommandLine.format_integer_of_some escape hagain⟩
  · obtain ⟨i', hi', rfl⟩ := hj.toInt64?
    rw [hi] at hi'
    rw [Option.some.inj hi']
  · rintro rfl
    exact Value.countsAs_of_toInt64? hi

/-- A text with a number before other characters. -/
theorem integer_marker_writes_prefix :
    (Value.text "\t-3.9e1 kg").IsScalar
      ∧ ∃ k, (∀ j, (Value.text "\t-3.9e1 kg").CountsAs j ↔ j = k) ∧ -2 ^ 63 ≤ k
        ∧ k ≤ 2 ^ 63 - 1 ∧ CanonicalInteger k "-39".toList
        ∧ Marker.integer.format EscapingMode.mysql.escaper (.text "\t-3.9e1 kg") = .ok "-39"
        ∧ Marker.integer.format EscapingMode.mysql.escaper (.text "-39") = .ok "-39" := by
  have hformat : Marker.integer.format EscapingMode.mysql.escaper (.text "\t-3.9e1 kg")
      = .ok "-39" := by decide +kernel
  obtain ⟨k, w, hcounts, hlow, hhigh, hcanonical, hwritten, hagain⟩ :=
    integer_marker_writes EscapingMode.mysql.escaper (v := .text "\t-3.9e1 kg") .text
  obtain rfl : w = "-39" := Except.ok.inj (hwritten.symm.trans hformat)
  exact ⟨.text, k, hcounts, hlow, hhigh, hcanonical, hwritten, hagain⟩

/-! ## Exponents that do not count in full -/

/-- The numeral `0.00…01e655360`, with a number of zeros behind the point. -/
def cutNumeral (zeros : Nat) : Numeral :=
  ⟨false, ['0'], some (List.replicate zeros '0' ++ ['1']), some 655360⟩

/-- The text of it. -/
def cutText (zeros : Nat) : String :=
  String.ofList ('0' :: '.' :: (List.replicate zeros '0' ++ "1e655360".toList))

/-- The text whose exponent is cut leads with the numeral that it spells. -/
theorem leads_cutText (zeros : Nat) : (cutNumeral zeros).Leads (cutText zeros) := by
  have hpower : (ofDigits "655360".toList : Int) = 655360 := by decide
  have hne : "655360".toList ≠ [] := by decide
  have hexponent := ExponentText.unsigned hne (List.all_eq_true.mp (by decide))
  rw [hpower] at hexponent
  have hfraction : ∀ c ∈ (cutNumeral zeros).fractionDigits, c.isDigit = true := by
    exact List.forall_mem_append.mpr
      ⟨Decimal.isDigit_of_mem_zeros zeros, List.forall_mem_singleton.mpr rfl⟩
  have hspells : (cutNumeral zeros).Spells _ :=
    .intro .none (List.forall_mem_singleton.mpr rfl) hfraction (Or.inl (List.cons_ne_nil _ _))
      hexponent
  have htext : (cutText zeros).toList = [] ++ ((cutNumeral zeros).whole
      ++ (Numeral.fractionText (cutNumeral zeros).fraction
        ++ 'e' :: "655360".toList)) := by
    rw [cutText, String.toList_ofList]
    simp [cutNumeral, Numeral.fractionText]
  exact Numeral.Spells.leads (htext ▸ hspells)

/-- The digits of this numeral are zeros and a one. -/
theorem ofDigits_cutNumeral (zeros : Nat) :
    ofDigits ((cutNumeral zeros).whole ++ (cutNumeral zeros).fractionDigits) = 1 := by
  have hdigits : (cutNumeral zeros).whole ++ (cutNumeral zeros).fractionDigits
      = [] ++ List.replicate (zeros + 1) '0' ++ ['1'] := rfl
  have hnone : ofDigits [] = 0 := rfl
  rw [hdigits, Decimal.ofDigits_append_singleton, Decimal.ofDigits_append_zeros, hnone,
    Nat.zero_mul]
  rfl

theorem length_cutNumeral (zeros : Nat) :
    ((cutNumeral zeros).fractionDigits.length : Int) = zeros + 1 := by
  have hdigits : (cutNumeral zeros).fractionDigits = List.replicate zeros '0' ++ ['1'] := rfl
  rw [hdigits, List.length_append, List.length_replicate, List.length_singleton]
  rfl

/-- The exponent is far beyond what the zeros take back, so the number that is written is beyond all
floats. -/
theorem size_cutNumeral (zeros : Nat) :
    (cutNumeral zeros).size = ⟨1, 655360 - (zeros + 1)⟩ := by
  rw [Numeral.size, ofDigits_cutNumeral, length_cutNumeral]
  rfl

/-- Of the exponent, only the first five digits count. -/
theorem decimal_cutNumeral (zeros : Nat) :
    (cutNumeral zeros).decimal = ⟨1, 65536 - (zeros + 1)⟩ := by
  have hcut : (cutNumeral zeros).countedExponent = 65536 := by
    have hpower : (cutNumeral zeros).exponent = some 655360 := rfl
    rw [Numeral.countedExponent, hpower, Option.getD_some]
    decide +kernel
  rw [Numeral.decimal, ofDigits_cutNumeral, length_cutNumeral, hcut]

/-- **An exponent that is cut counts as less.** The text `0.00…01e655360` with 65,536 zeros
behind the point is a number beyond all floats: the nearest is infinity, which counts as the last
integer of 64 bits. The marker writes zero. -/
theorem cut_exponent_counts_as_less :
    (cutNumeral 65536).Leads (cutText 65536) ∧ (cutNumeral 65536).isIntegral = false
      ∧ IsNearest (cutNumeral 65536).value (.ofMagnitude false Binary64.infinityMagnitude)
      ∧ Value.CountsAs (.float (.ofMagnitude false Binary64.infinityMagnitude)) (2 ^ 63 - 1)
      ∧ Marker.integer.format EscapingMode.mysql.escaper (.text (cutText 65536)) = .ok "0"
      ∧ ¬ CanonicalInteger (2 ^ 63 - 1) "0".toList := by
  have hleads := leads_cutText 65536
  -- The number itself is `10 ^ 589823`, and the one that is counted is a tenth.
  have hsize : (Decimal.mk 1 589823).order = 589823 := by decide +kernel
  have hnearest : IsNearest (cutNumeral 65536).value
      (.ofMagnitude false Binary64.infinityMagnitude) := by
    have hinfinite := Binary64.isNearest_ofDecimal false (Decimal.mk 1 589823)
    rw [Binary64.ofDecimal_of_le_order (by decide) (by omega)] at hinfinite
    have hvalue : (cutNumeral 65536).value
        = Binary64.signed false (Decimal.mk 1 589823).value := by
      rw [Numeral.value, size_cutNumeral]
      rfl
    rwa [hvalue]
  have hzero : (Binary64.ofDecimal false (Decimal.mk 1 (-1))).toInt64 = 0 := by decide +kernel
  have hinteger : (Value.text (cutText 65536)).toInt64? = some 0 := by
    have hnot : ¬ (cutNumeral 65536).isIntegral = true := Bool.false_ne_true
    rw [Value.toInt64?_text_of_leads hleads, Numeral.toInt64, if_neg hnot, decimal_cutNumeral]
    exact congrArg some hzero
  refine ⟨hleads, rfl, hnearest, .infinite (by decide), ?_, ?_⟩
  · have hwritten : Decimal.integerText (Int64.toInt 0) = "0" := by decide +kernel
    rw [CommandLine.format_integer_of_some _ hinteger, hwritten]
  · exact fun h => absurd (h.eq_zero rfl) (by decide)

end SqlTemplate
