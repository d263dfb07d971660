import SqlTemplate.Proofs.Binary64.ShortestDigits
import SqlTemplate.Proofs.Format.NumberGrammar
import SqlTemplate.Proofs.Format.SignificantDigits

/-!
The text of a float.

A finite float is written in one of two notations, by its size: `Grammar.plainFloat` is

    -? (0 | [1-9] D*) (. D* [1-9])?

and `Grammar.scientificFloat` is

    -? [1-9] (. D* [1-9])? e -? [1-9] D*

so that no zero stands where it tells nothing. `float_text_is_shortest` says which notation it is,
that of all floats with the sign of the text exactly the one that was written is nearest to the
number that the text spells, and that no number with fewer significant digits is rounded to it.
-/

set_option autoImplicit false

namespace SqlTemplate

open Binary64 (IsNearest signed)
open Decimal (ofDigits)
open RegularExpression (char)

variable {s t run : List Char} {negative : Bool} {d : Decimal} {n : Numeral} {x : Binary64}

/-! ## Notations -/

namespace Grammar

/-- A digit other than zero. -/
def nonzero : RegularExpression Char := oneOf ['1', '2', '3', '4', '5', '6', '7', '8', '9']

/-- A minus sign, or nothing. -/
def minus : RegularExpression Char := optional (char '-')

/-- A positive integer. -/
def positive : RegularExpression Char := nonzero * digit.star

/-- Places behind the point, up to one that is not zero. -/
def places : RegularExpression Char := char '.' * (digit.star * nonzero)

/-- Plain text of a float. -/
def plainFloat : RegularExpression Char := minus * ((char '0' + positive) * optional places)

/-- Exponent text of a float. -/
def scientificFloat : RegularExpression Char :=
  minus * (nonzero * (optional places * (char 'e' * (minus * positive))))

variable {p q : RegularExpression Char} {c : Char}

theorem append_mem_mul (hs : s ∈ p.matches') (ht : t ∈ q.matches') :
    s ++ t ∈ (p * q).matches' := by
  rw [RegularExpression.matches'_mul, Language.mem_mul]
  exact ⟨s, hs, t, ht, rfl⟩

theorem singleton_mem_char (c : Char) : [c] ∈ (char c).matches' := rfl

theorem singleton_mem_nonzero (hdigit : c.isDigit = true) (hc : c ≠ '0') :
    [c] ∈ nonzero.matches' := by
  have hmem : c ∈ digits := mem_digits.mpr hdigit
  exact mem_oneOf.mpr ⟨c, (List.mem_cons.mp hmem).resolve_left hc, rfl⟩

/-- Digits without a zero in front. -/
theorem cons_mem_positive (hrun : ∀ d ∈ c :: run, d.isDigit = true) (hc : c ≠ '0') :
    c :: run ∈ positive.matches' := by
  rw [List.forall_mem_cons] at hrun
  exact append_mem_mul (singleton_mem_nonzero hrun.1 hc) (mem_star_digit.mpr hrun.2)

/-- Digits behind a point are places if the last one is not zero. -/
theorem cons_mem_places (hne : run ≠ []) (hrun : ∀ d ∈ run, d.isDigit = true)
    (hlast : ∀ c, run.getLast? = some c → c ≠ '0') : '.' :: run ∈ places.matches' := by
  rcases List.eq_nil_or_concat' run with rfl | ⟨front, last, rfl⟩
  · exact absurd rfl hne
  · rw [List.forall_mem_append, List.forall_mem_singleton] at hrun
    have hlast' : last ≠ '0' :=
      hlast last (by rw [List.getLast?_append, List.getLast?_singleton, Option.some_or])
    exact append_mem_mul (singleton_mem_char '.')
      (append_mem_mul (mem_star_digit.mpr hrun.1) (singleton_mem_nonzero hrun.2 hlast'))

/-- The minus sign of a notation is there or not. -/
theorem mem_minus_mul (h : t ∈ p.matches') : t ∈ (minus * p).matches' :=
  append_mem_mul (s := []) (mem_optional.mpr (Or.inl rfl)) h

theorem cons_mem_minus_mul (h : t ∈ p.matches') : '-' :: t ∈ (minus * p).matches' :=
  append_mem_mul (s := ['-']) (mem_optional.mpr (Or.inr (singleton_mem_char '-'))) h

/-- A numeral is written the way its unsigned part is, with a minus sign or without. -/
theorem written_mem (h : n.unsigned ∈ p.matches') : n.written ∈ (minus * p).matches' := by
  rw [Numeral.written]
  split
  · exact cons_mem_minus_mul h
  · exact mem_minus_mul h

/-- A power of ten other than one. -/
theorem exponentText_mem {k : Int} (hk : k ≠ 0) :
    Numeral.exponentText (some k) ∈ (char 'e' * (minus * positive)).matches' := by
  have hcanonical := canonicalInteger_integerText k
  rw [Numeral.exponentText]
  generalize (Decimal.integerText k).toList = text at hcanonical ⊢
  refine append_mem_mul (s := ['e']) (t := text) (singleton_mem_char 'e') ?_
  cases hcanonical with
  | zero => exact absurd rfl hk
  | positive hd hdigits => exact mem_minus_mul (cons_mem_positive hdigits hd)
  | negative hd hdigits => exact cons_mem_minus_mul (cons_mem_positive hdigits hd)

end Grammar

/-! ## Layouts are in the notations -/

namespace Decimal

open Grammar

theorem digits_zero : digits 0 = ['0'] := digits_of_lt_ten (by decide)

/-- If the coefficient has no zero at its end, neither have the places behind the point. -/
theorem Layout.fractionText_mem (h : d.Layout negative n) (hlast : d.coefficient % 10 ≠ 0) :
    Numeral.fractionText n.fraction ∈ (optional places).matches' := by
  have hdigits := isDigit_of_mem_digits d.coefficient
  have hends (run : List Char) (hrun : run <:+ digits d.coefficient) :=
    ne_zero_of_getLast? hlast hrun
  rw [mem_optional]
  -- In each layout the places behind the point end in the last digit of the coefficient.
  cases h with
  | whole | single => exact Or.inl rfl
  | @mixed whole fraction hsplit _ hfraction =>
    rw [hsplit] at hdigits hends
    refine Or.inr (cons_mem_places hfraction ?_ (hends _ (List.suffix_append whole fraction)))
    exact (List.forall_mem_append.mp hdigits).2
  | @below zeros =>
    refine Or.inr (cons_mem_places ?_ ?_ ?_)
    · exact List.append_ne_nil_of_right_ne_nil _ (digits_ne_nil _)
    · exact isDigit_of_mem_zeros_append_digits zeros d.coefficient
    · rw [List.getLast?_append, getLast?_digits, Option.some_or]
      exact getLast?_digits d.coefficient ▸ hends _ (List.suffix_refl _)
  | @pointed first rest hsplit hrest =>
    rw [hsplit] at hdigits hends
    refine Or.inr (cons_mem_places hrest ?_ (hends _ (List.suffix_cons first rest)))
    exact (List.forall_mem_cons.mp hdigits).2

/-- Before the point of plain text stand a single zero or digits that begin with another one. -/
theorem Layout.whole_mem (h : d.Layout negative n) (hlast : d.coefficient % 10 ≠ 0)
    (hexponent : n.exponent = none) : n.whole ∈ (char '0' + positive).matches' := by
  have hdigits := isDigit_of_mem_digits d.coefficient
  have hhead := ne_zero_of_head? hlast
  rw [RegularExpression.matches'_add, Language.mem_add]
  cases h with
  -- Zeros may stand behind the digits here, but the first digit is the same.
  | whole =>
    obtain ⟨first, rest, hcons⟩ := List.exists_cons_of_ne_nil (digits_ne_nil d.coefficient)
    rw [hcons] at hhead
    have hrun := isDigit_of_mem_digits_append_zeros d.coefficient
    dsimp only
    rw [hcons] at hrun ⊢
    exact Or.inr (cons_mem_positive (hrun _) (hhead first rfl))
  | @mixed whole fraction hsplit hwhole =>
    obtain ⟨first, rest, rfl⟩ := List.exists_cons_of_ne_nil hwhole
    rw [hsplit] at hdigits hhead
    exact Or.inr (cons_mem_positive (List.forall_mem_append.mp hdigits).1 (hhead first rfl))
  | below => exact Or.inl rfl
  | single | pointed => exact absurd hexponent (Option.some_ne_none _)

/-- A layout without a power of ten is plain text. -/
theorem Layout.mem_plainFloat (h : d.Layout negative n) (hlast : d.coefficient % 10 ≠ 0)
    (hexponent : n.exponent = none) : n.written ∈ plainFloat.matches' := by
  refine written_mem (append_mem_mul (h.whole_mem hlast hexponent) ?_)
  rw [hexponent, Numeral.exponentText, List.append_nil]
  exact h.fractionText_mem hlast

/-- So is a layout of zero. -/
theorem Layout.mem_plainFloat_of_zero (h : Layout negative ⟨0, 0⟩ n)
    (hexponent : n.exponent = none) : n.written ∈ plainFloat.matches' := by
  refine written_mem ?_
  -- Of the layouts without a power of ten, zero has only the one without a point.
  have hunsigned : n.unsigned = ['0'] := by
    cases h with
    | @whole zeros hzeros =>
      obtain rfl : zeros = 0 := (Int.natCast_eq_zero.mp hzeros.symm)
      rw [Numeral.unsigned]
      dsimp only
      rw [digits_zero]
      rfl
    | @mixed whole fraction _ _ hfraction hpower =>
      refine absurd (List.length_pos_iff.mpr hfraction) ?_
      have : (0 : Int) = -fraction.length := hpower
      omega
    | @below zeros hpower =>
      have hlength : (digits 0).length = 1 := congrArg List.length digits_zero
      have : (0 : Int) = -(zeros + (digits 0).length : Nat) := hpower
      omega
    | single | pointed => exact absurd hexponent (Option.some_ne_none _)
  rw [hunsigned]
  refine append_mem_mul (s := ['0']) (t := []) ?_ (mem_optional.mpr (Or.inl rfl))
  exact Or.inl (singleton_mem_char '0')

/-- A layout with a power of ten other than one is exponent text. -/
theorem Layout.mem_scientificFloat (h : d.Layout negative n) (hlast : d.coefficient % 10 ≠ 0)
    {k : Int} (hexponent : n.exponent = some k) (hk : k ≠ 0) :
    n.written ∈ scientificFloat.matches' := by
  have hdigits := isDigit_of_mem_digits d.coefficient
  have hhead := ne_zero_of_head? hlast
  have hfirst : n.whole ∈ nonzero.matches' := by
    cases h with
    | whole | mixed | below => exact absurd hexponent.symm (Option.some_ne_none _)
    | single hsplit | pointed hsplit =>
      rw [hsplit] at hdigits hhead
      exact singleton_mem_nonzero (hdigits _ List.mem_cons_self) (hhead _ rfl)
  refine written_mem (append_mem_mul hfirst (append_mem_mul (h.fractionText_mem hlast) ?_))
  rw [hexponent]
  exact exponentText_mem hk

end Decimal

/-! ## The spelling of a layout -/

/-- An exponent as it is written is one by the grammar. -/
theorem exponentText_spells (power : Option Int) :
    ExponentText power (Numeral.exponentText power) := by
  cases power with
  | none => exact .none
  | some k =>
    have hne := Decimal.digits_ne_nil k.natAbs
    have hdigits := Decimal.isDigit_of_mem_digits k.natAbs
    rw [Numeral.exponentText, Decimal.integerText, String.toList_ofList]
    split
    · rename_i hneg
      have hpower := ExponentText.some (Or.inl rfl) .minus hne hdigits
      rw [if_pos rfl, Decimal.ofDigits_digits, Int.ofNat_natAbs_of_nonpos hneg.le, neg_neg]
        at hpower
      exact hpower
    · rename_i hneg
      have hpower := ExponentText.unsigned hne hdigits
      rw [Decimal.ofDigits_digits, Int.natAbs_of_nonneg (not_lt.mp hneg)] at hpower
      exact hpower

/-- A written numeral spells the numeral. -/
theorem Numeral.WellFormed.spells (hn : n.WellFormed) : n.Spells n.written := by
  have hsign : SignText n.negative (if n.negative then ['-'] else []) := by
    cases n.negative with
    | false => exact .none
    | true => exact .minus
  have hspells := Spells.intro hsign hn.whole hn.fractionDigits (Or.inl hn.whole_ne_nil)
    (exponentText_spells n.exponent)
  rw [written]
  split
  · rename_i hnegative
    rw [if_pos hnegative] at hspells
    exact hspells
  · rename_i hpositive
    rw [if_neg hpositive] at hspells
    exact hspells

/-! ## The size of a float -/

namespace Binary64

/-- Whether a number is written without a power of ten. -/
def InPlainRange (x : Binary64) : Prop :=
  x.value = 0 ∨ 10 ^ (-5 : Int) ≤ |x.value| ∧ |x.value| < 10 ^ 16

/-- The floats of value zero are those of magnitude zero. -/
theorem magnitude_eq_zero_iff : x.magnitude = 0 ↔ x.value = 0 := by
  have hone := cast_one_pos
  rw [← abs_eq_zero, abs_value, div_eq_zero_iff, or_iff_left hone.ne', Nat.cast_eq_zero]
  conv_rhs => rw [← unitsOf_zero, unitsOf_strictMono.injective.eq_iff]

/-- A float reaches a power of ten exactly if its size does. -/
theorem reaches_iff {k : Int} : x.reaches k = true ↔ (10 : ℚ) ^ k ≤ |x.value| := by
  have hone := cast_one_pos
  have hquarter : (0 : ℚ) < 10 ^ (-k).toNat := pow_pos (by norm_num) _
  rw [reaches, decide_eq_true_eq, units_eq, abs_value, le_div_iff₀ hone, Nat.pow_eq, Nat.pow_eq,
    ← mul_le_mul_iff_left₀ hquarter, mul_right_comm, ten_zpow_mul_pow]
  generalize one = units
  exact_mod_cast Iff.rfl

/-- A float is written without exponent exactly in the plain range. -/
theorem isPlain_iff : x.isPlain sqlNumber = true ↔ x.InPlainRange := by
  have hfrom : x.reaches sqlNumber.plainFrom = true ↔ (10 : ℚ) ^ (-5 : Int) ≤ |x.value| :=
    reaches_iff
  have hbelow : x.reaches sqlNumber.plainBelow = true ↔ (10 : ℚ) ^ 16 ≤ |x.value| := by
    exact_mod_cast reaches_iff (x := x) (k := 16)
  rw [isPlain, InPlainRange, Bool.or_eq_true, beq_iff_eq, magnitude_eq_zero_iff, Bool.and_eq_true,
    hfrom, Bool.not_eq_true', ← Bool.not_eq_true, hbelow, not_le]

/-- If a power of ten is rounded up or is a float itself, the float nearest to it bounds the floats
that are as large as it. -/
theorem nearest_le_iff {r : ℚ} {y : Binary64} (hnumber : x.isNaN = false) (hy : IsNearest r y)
    (hup : r ≤ y.value) : y.value ≤ |x.value| ↔ r ≤ |x.value| := by
  refine ⟨hup.trans, fun hx => not_lt.mp fun hlt => ?_⟩
  have hm := magnitude_lt_signWeight x
  have hvalue : (ofMagnitude false x.magnitude).value = |x.value| := by
    rw [value_ofMagnitude false hm, abs_value]
    rfl
  have hle := hy.le (ofMagnitude false x.magnitude) <| by
    rw [isNaN, magnitude_ofMagnitude false hm]
    exact hnumber
  rw [hvalue, abs_of_nonpos (sub_nonpos.mpr hx), abs_of_nonpos (sub_nonpos.mpr hup)] at hle
  linarith

/-- The bounds of the plain range may as well be compared as floats. -/
theorem inPlainRange_iff_floats (hnumber : x.isNaN = false) :
    x.InPlainRange ↔ x.value = 0 ∨ (ofDecimal false ⟨1, -5⟩).value ≤ |x.value|
      ∧ |x.value| < (ofDecimal false ⟨1, 16⟩).value := by
  -- Where the float nearest to a power of ten is not below it, floats compare alike with both; by
  -- computation it is so at the two bounds.
  have hbound : ∀ k : Int, (ofDecimal false ⟨1, k⟩).reaches k = true →
      (ofDecimal false ⟨1, k⟩).isNegative = false →
      ((ofDecimal false ⟨1, k⟩).value ≤ |x.value| ↔ (10 : ℚ) ^ k ≤ |x.value|) := by
    intro k hreaches hsign
    have hnearest := isNearest_ofDecimal false ⟨1, k⟩
    generalize ofDecimal false ⟨1, k⟩ = y at hreaches hsign hnearest ⊢
    rw [signed, if_neg Bool.false_ne_true, Decimal.value, Nat.cast_one, one_mul] at hnearest
    refine nearest_le_iff hnumber hnearest ?_
    have hpositive : y.value = |y.value| := by
      rw [value_eq, hsign, signed, if_neg Bool.false_ne_true, abs_of_nonneg (unitsOf_div_nonneg _)]
    rw [hpositive, ← reaches_iff]
    exact hreaches
  have hlow := hbound (-5) (by decide +kernel) (by decide +kernel)
  have hhigh := hbound 16 (by decide +kernel) (by decide +kernel)
  have hpower : (10 : ℚ) ^ (16 : Int) = 10 ^ 16 := by norm_num
  rw [InPlainRange, hlow, ← not_le, ← not_le, hhigh, hpower]

/-- Numbers with a power of ten are so large or so small that it is not one. -/
theorem order_shortest_ne_zero (hfinite : x.isFinite = true) (hx : ¬ x.InPlainRange) :
    x.shortest.order ≠ 0 := by
  rw [InPlainRange, not_or, not_and_or, not_le, not_lt, ← magnitude_eq_zero_iff] at hx
  obtain ⟨hne, hsize⟩ := hx
  intro horder
  -- One and sixteen are floats, and rounding does not go across a float.
  rcases hsize with hsmall | hlarge
  · have hsmall' : |x.value| < 2 ^ 0 := hsmall.trans (by norm_num)
    have hbelow := shortest_lt_two_pow hfinite (by decide) hsmall'
    have hlast := shortest_mod_ten (Nat.pos_of_ne_zero hne)
    have habove := Decimal.le_value (d := x.shortest) fun hzero => hlast (by rw [hzero])
    rw [horder, zpow_zero] at habove
    rw [pow_zero] at hbelow
    exact absurd hbelow (not_lt.mpr habove)
  · have hlarge' : 2 ^ 4 < |x.value| := lt_of_lt_of_le (by norm_num) hlarge
    have habove := two_pow_lt_shortest hfinite hlarge'
    have hbelow := x.shortest.value_lt
    rw [horder, zero_add, zpow_one] at hbelow
    linarith

/-- Of one sign, only one float is nearest. -/
theorem eq_of_isNearest {r : ℚ} {y : Binary64} (hx : IsNearest r x) (hy : IsNearest r y)
    (hsign : x.isNegative = y.isNegative) : x = y := by
  have hbits := eq_of_isNegative_of_magnitude hsign (magnitude_eq_of_value_eq (hx.value_eq hy))
  exact congrArg Binary64.mk hbits

end Binary64

/-! ## What the text of a float is -/

namespace WritesShortest

/-- The numeral is rounded to the float that it was written for. -/
theorem isNearest (h : WritesShortest x n) (hfinite : x.isFinite = true) :
    IsNearest n.value x := by
  rw [Numeral.value, h.sign, h.layout.size_value]
  exact Binary64.isNearest_shortest hfinite

/-- What is rounded to the float has no fewer significant digits. -/
theorem length_significant_le (h : WritesShortest x n) (hfinite : x.isFinite = true) {m : Numeral}
    (hdigits : ∀ c ∈ m.whole ++ m.fractionDigits, c.isDigit = true) (hm : IsNearest m.value x) :
    n.significant.length ≤ m.significant.length := by
  rcases Nat.eq_zero_or_pos x.magnitude with hzero | hpos
  · rw [h.layout.significant_of_zero (by rw [Binary64.shortest_zero hzero])]
    exact Nat.zero_le _
  -- The other numeral is a number of its significant digits times some power of ten.
  · obtain ⟨power, hvalue⟩ := m.exists_size_value
    have hlast := Binary64.shortest_mod_ten hpos
    have hbound := Decimal.ofDigits_lt m.significant (Numeral.isDigit_of_mem_significant hdigits)
    rw [Numeral.value, hvalue] at hm
    have hshort := Binary64.shortest_coefficient_lt hfinite hm hbound
    rw [h.layout.significant hlast, ← Decimal.digitCount, Decimal.digitCount_eq_log]
    exact Nat.log_lt_of_lt_pow (fun hzero => hlast (by rw [hzero])) hshort

/-- The notation is the announced one. -/
theorem mem_notation (h : WritesShortest x n) (hfinite : x.isFinite = true) :
    (x.InPlainRange → n.written ∈ Grammar.plainFloat.matches')
      ∧ (¬ x.InPlainRange → n.written ∈ Grammar.scientificFloat.matches') := by
  have hexponent := h.exponent
  have hlayout := h.layout
  rw [← Binary64.isPlain_iff]
  constructor
  · intro hplain
    rw [if_pos hplain] at hexponent
    -- The digits of zero are the only ones that end in a zero.
    rcases Nat.eq_zero_or_pos x.magnitude with hzero | hpos
    · rw [Binary64.shortest_zero hzero] at hlayout
      exact hlayout.mem_plainFloat_of_zero hexponent
    · exact hlayout.mem_plainFloat (Binary64.shortest_mod_ten hpos) hexponent
  · intro hplain
    rw [if_neg hplain] at hexponent
    rw [Binary64.isPlain_iff] at hplain
    have hpos : 0 < x.magnitude := Nat.pos_of_ne_zero fun hzero =>
      hplain (Or.inl (Binary64.magnitude_eq_zero_iff.mp hzero))
    exact hlayout.mem_scientificFloat (Binary64.shortest_mod_ten hpos) hexponent
      (Binary64.order_shortest_ne_zero hfinite hplain)

end WritesShortest

/-- A numeral with its sign is rounded to one float, the given one. -/
def Numeral.DenotesOnly (n : Numeral) (x : Binary64) : Prop :=
  ∀ y, IsNearest n.value y ∧ y.isNegative = n.negative ↔ y = x

/-- A numeral is rounded to a float, and none with fewer significant digits is. -/
def Numeral.IsShortestFor (n : Numeral) (x : Binary64) : Prop :=
  IsNearest n.value x ∧ ∀ (m : Numeral) (text : List Char), m.Spells text → IsNearest m.value x →
    n.significant.length ≤ m.significant.length

/-- **The text of a float is exact, as short as can be, and in the announced notation.** A finite
float has a text. It is plain if the float is zero or its size is from `0.00001` on and below
`10 ^ 16`, and otherwise it has an exponent, with no superfluous zeros either way. The number that
it spells is rounded to the float and, under the sign of the text, to no other, and no number with
fewer significant digits is rounded to it. So no other float has the same text. What is not finite
has none. -/
theorem float_text_is_shortest (x : Binary64) :
    (x.isFinite = true → ∃ (w : String) (n : Numeral), x.literal = .ok w ∧ n.Spells w.toList
        ∧ (x.InPlainRange → w.toList ∈ Grammar.plainFloat.matches')
        ∧ (¬ x.InPlainRange → w.toList ∈ Grammar.scientificFloat.matches')
        ∧ n.DenotesOnly x ∧ n.IsShortestFor x ∧ ∀ y : Binary64, y.literal = .ok w → y = x)
      ∧ (x.isFinite = false → x.literal = .error (.unquotable "non-finite float")) := by
  constructor
  · intro hfinite
    have hliteral : x.literal = .ok (x.text sqlNumber) := if_pos hfinite
    obtain ⟨n, hn, hw⟩ := Binary64.exists_writesShortest hliteral
    have hspells := hn.layout.wellFormed.spells
    have hnearest := hn.isNearest hfinite
    obtain ⟨hplain, hscientific⟩ := hn.mem_notation hfinite
    have honly : n.DenotesOnly x := by
      intro y
      constructor
      · rintro ⟨hy, hysign⟩
        exact Binary64.eq_of_isNearest hy hnearest (hysign.trans hn.sign)
      · rintro rfl
        exact ⟨hnearest, hn.sign.symm⟩
    refine ⟨_, n, hliteral, hw ▸ hspells, hw ▸ hplain, hw ▸ hscientific, honly,
      ⟨hnearest, fun m text hm hmnearest => ?_⟩, fun y hy => ?_⟩
    · cases hm with
      | intro _ hwhole hfraction =>
        exact hn.length_significant_le hfinite (List.forall_mem_append.mpr ⟨hwhole, hfraction⟩)
          hmnearest
    -- The text of another float spells the same numeral.
    · have hyfinite : y.isFinite = true := by
        by_contra hinfinite
        rw [Binary64.literal, if_neg hinfinite] at hy
        exact absurd hy (by simp)
      obtain ⟨m, hm, hmw⟩ := Binary64.exists_writesShortest hy
      have hmspells := hm.layout.wellFormed.spells
      rw [← hmw, hw] at hmspells
      obtain rfl := LeadingNumber.eq_of_spells hspells hmspells
      exact (honly y).mp ⟨hm.isNearest hyfinite, hm.sign.symm⟩
  · intro hinfinite
    rw [Binary64.literal, hinfinite]
    rfl

/-- The float nearest to a tenth has the text of a tenth. -/
theorem float_text_is_shortest_tenth :
    (Binary64.mk 0x3FB999999999999A).isFinite = true
      ∧ (Binary64.mk 0x3FB999999999999A).literal = .ok "0.1"
      ∧ ∃ n : Numeral, n.Spells "0.1".toList ∧ n.DenotesOnly ⟨0x3FB999999999999A⟩
        ∧ n.IsShortestFor ⟨0x3FB999999999999A⟩ := by
  have hfinite : (Binary64.mk 0x3FB999999999999A).isFinite = true := by decide +kernel
  have hwritten : (Binary64.mk 0x3FB999999999999A).literal = .ok "0.1" := by decide +kernel
  obtain ⟨w, n, hw, hspells, -, -, honly, hshortest, -⟩ :=
    (float_text_is_shortest ⟨0x3FB999999999999A⟩).1 hfinite
  obtain rfl : w = "0.1" := Except.ok.inj (hw.symm.trans hwritten)
  exact ⟨hfinite, hwritten, n, hspells, honly, hshortest⟩

end SqlTemplate
