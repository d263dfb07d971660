import SqlTemplate.Proofs.Binary64.ExactIntegers
import SqlTemplate.Proofs.Format.FloatTexts
import SqlTemplate.Proofs.Format.NumberPlaces
import SqlTemplate.Proofs.Format.ShortestTexts

/-!
Floats that went through their text.

The text of a float is the same at the scalar marker and at the float marker, and as a text argument
it counts as the float again (`float_text_reads_back`). It is read on one of two ways. With a point
or an exponent it is rounded to the nearest float, which is the one that was written; its exponent
is in the range of the format, so that all of it counts. Without, it is read as an integer of 64
bits: only floats below `10 ^ 16` are written that way, and their digits are exact. An integer has
no negative zero, so `-0` is the one text that is not written again as it is.
-/

set_option autoImplicit false

namespace SqlTemplate

open Binary64 (IsNearest signed)

variable {head : List Char} {negative : Bool} {d : Decimal} {n : Numeral} {x : Binary64}

/-! ## The whole text is read -/

/-- A spelling alone is read as a whole. -/
theorem Numeral.Spells.read?_eq (h : n.Spells head) :
    LeadingNumber.read? head = some (n, []) := by
  obtain ⟨m, rest, hread, hsuffix, hsame⟩ := LeadingNumber.exists_read?_append h []
  rw [List.suffix_nil] at hsuffix
  rw [List.append_nil] at hread
  rw [hread, hsame hsuffix, hsuffix]

/-- The end of a spelling alone is the end of the text. -/
theorem Numeral.Spells.numberEnd_eq (h : n.Spells head) :
    numberEnd (encode head) = .ok (some ((encode head).length, n.isIntegral)) := by
  have hlength : (encode head).length = head.length := by
    rw [encode_of_ascii h.ascii, List.length_map]
  have hread := h.read?_eq
  rcases numberEnd_encode head with ⟨hnone, -⟩ | ⟨m, front, rest, hsome, -, hsplit, hend⟩
  · rw [hread] at hnone
    exact absurd hnone (by simp)
  · rw [hread] at hsome
    obtain ⟨rfl, rfl⟩ := Prod.mk.inj (Option.some.inj hsome)
    rw [List.append_nil] at hsplit
    rw [hend, hlength, hsplit]

/-! ## The way through a float -/

namespace Binary64

/-- The float of a decimal has the sign that is asked for. -/
theorem isNegative_ofDecimal (negative : Bool) (d : Decimal) :
    (ofDecimal negative d).isNegative = negative := by
  rw [ofDecimal]
  split
  · exact isNegative_ofMagnitude negative (by decide)
  split
  · exact isNegative_ofMagnitude negative infinityMagnitude_lt_signWeight
  · exact isNegative_ofMagnitude negative (roundMagnitude_lt_signWeight _ _)

/-- The shortest digits read back as the float. -/
theorem ofDecimal_shortest (hfinite : x.isFinite = true) :
    ofDecimal x.isNegative x.shortest = x :=
  eq_of_isNearest (isNearest_ofDecimal x.isNegative x.shortest) (isNearest_shortest hfinite)
    (isNegative_ofDecimal _ _)

/-- The shortest digits of a finite number other than zero are in the range of the format. -/
theorem order_shortest_bounds (hpos : 0 < x.magnitude) (hfinite : x.isFinite = true) :
    -324 ≤ x.shortest.order ∧ x.shortest.order < 309 := by
  have hback := ofDecimal_shortest hfinite
  have hlast := shortest_mod_ten hpos
  rw [isFinite, decide_eq_true_eq] at hfinite
  -- Outside the range the digits would read back as zero or as infinity.
  constructor
  · by_contra hsmall
    rw [ofDecimal_of_order_lt (Or.inr (not_le.mp hsmall))] at hback
    rw [← hback, magnitude_ofMagnitude _ (by decide)] at hpos
    exact absurd hpos (lt_irrefl 0)
  · by_contra hlarge
    have hne : x.shortest.coefficient ≠ 0 := fun hzero => hlast (by rw [hzero])
    rw [ofDecimal_of_le_order hne (not_lt.mp hlarge)] at hback
    rw [← hback, magnitude_ofMagnitude _ infinityMagnitude_lt_signWeight] at hfinite
    exact absurd hfinite (lt_irrefl _)

/-- A value is its size with its sign. -/
theorem signed_abs_value (x : Binary64) : signed x.isNegative |x.value| = x.value := by
  rw [abs_value, ← value_eq]

end Binary64

namespace WritesShortest

/-- The shortest text of a finite float is read in full. -/
theorem readInFull (h : WritesShortest x n) (hfinite : x.isFinite = true) : n.ReadInFull := by
  refine Or.inl ?_
  rw [h.exponent]
  split
  · decide
  · rename_i hplain
    have hpos : 0 < x.magnitude := by
      refine Nat.pos_of_ne_zero fun hzero => hplain ?_
      rw [Binary64.isPlain, hzero]
      rfl
    have horder := Binary64.order_shortest_bounds hpos hfinite
    rw [Option.getD_some, Numeral.exponentLimit]
    omega

/-- With a point or an exponent, the text counts as the float. -/
theorem ofDecimal_eq (h : WritesShortest x n) (hfinite : x.isFinite = true) :
    Binary64.ofDecimal n.negative n.decimal = x := by
  have hn := h.layout.wellFormed
  have hdigits := List.forall_mem_append.mpr ⟨hn.whole, hn.fractionDigits⟩
  refine Binary64.eq_of_isNearest (Numeral.isNearest_value hdigits (h.readInFull hfinite))
    (h.isNearest hfinite) ?_
  rw [Binary64.isNegative_ofDecimal, h.sign]

/-! ## The way through an integer -/

/-- Without point and exponent the digits are exact, and far from the ends of 64 bits. -/
theorem of_isIntegral (h : WritesShortest x n) (hn : n.isIntegral = true) :
    x.value = n.wholeInt ∧ |n.wholeInt| < 10 ^ 16 := by
  have hvalue := Numeral.value_of_isIntegral hn
  rw [Numeral.isIntegral, Bool.and_eq_true, Option.isNone_iff_eq_none, Option.isNone_iff_eq_none]
    at hn
  -- Text without an exponent is plain, so the float is small.
  have hplain : x.isPlain sqlNumber = true := by
    by_contra hnot
    have hexponent := h.exponent
    rw [if_neg hnot, hn.2] at hexponent
    exact absurd hexponent.symm (Option.some_ne_none _)
  have hlt : |x.value| < 10 ^ 16 := by
    rcases Binary64.isPlain_iff.mp hplain with hzero | ⟨-, hlt⟩
    · rw [hzero, abs_zero]
      norm_num
    · exact hlt
  have hwhole : 0 ≤ x.shortest.exponent := by
    have hlayout := h.layout
    have hfraction := hn.1
    cases hlayout with
    | whole hexponent => exact hexponent ▸ Int.natCast_nonneg _
    | mixed | below | pointed => exact absurd hfraction (Option.some_ne_none _)
    | single => exact absurd hn.2 (Option.some_ne_none _)
  rw [Numeral.value, h.sign, h.layout.size_value, Binary64.value_shortest_of_whole hlt hwhole,
    Binary64.signed_abs_value] at hvalue
  refine ⟨hvalue, ?_⟩
  rw [hvalue] at hlt
  exact_mod_cast hlt

/-- An integer that is written for a float lies in range. -/
theorem nearestInt64_wholeInt (h : WritesShortest x n) (hn : n.isIntegral = true) :
    nearestInt64 n.wholeInt = n.wholeInt := by
  have hlt := (h.of_isIntegral hn).2
  rw [abs_lt] at hlt
  exact nearestInt64_of_mem (by omega) (by omega)

/-- **The text counts as the float,** but for the sign of a zero. -/
theorem toBinary64_eq (h : WritesShortest x n) (hfinite : x.isFinite = true)
    (hx : x.magnitude ≠ 0) : n.toBinary64 = x := by
  by_cases hn : n.isIntegral = true
  -- Two floats are nearest to the digits, and only a zero could differ in its sign.
  · have hnearest := Binary64.isNearest_ofInt n.wholeInt
    have hback := h.isNearest hfinite
    rw [Numeral.value_of_isIntegral hn] at hback
    rw [Numeral.toBinary64_of_isIntegral hn, h.nearestInt64_wholeInt hn]
    exact Binary64.eq_of_sameValue (Binary64.sameValue_of_value_eq hnearest.isNumber hback.isNumber
      (hnearest.value_eq hback)) hx
  · rw [Numeral.toBinary64, if_neg hn, h.ofDecimal_eq hfinite]

/-- **The text counts as the integer that the float counts as.** -/
theorem toInt64_eq (h : WritesShortest x n) (hfinite : x.isFinite = true) :
    n.toInt64 = x.toInt64 := by
  have hnumber := (Binary64.isNearest_shortest hfinite).isNumber
  by_cases hn : n.isIntegral = true
  · have htruncate : x.truncate = n.wholeInt := by
      rw [Binary64.truncate_eq, (h.of_isIntegral hn).1, towardZero]
      split
      · exact Int.ceil_intCast _
      · exact Int.floor_intCast _
    rw [Numeral.toInt64, if_pos hn, Binary64.toInt64, hnumber, if_neg Bool.false_ne_true, htruncate]
  · rw [Numeral.toInt64, if_neg hn, h.ofDecimal_eq hfinite]

end WritesShortest

/-! ## At the markers -/

/-- The negative zero. -/
def Binary64.negativeZero : Binary64 := .ofMagnitude true 0

/-- The two zeros have no magnitude. -/
theorem Binary64.eq_zero_of_magnitude (h : x.magnitude = 0) :
    x = .ofInt 0 ∨ x = .negativeZero := by
  have hx := ofMagnitude_magnitude x
  rw [h] at hx
  cases hsign : x.isNegative with
  | false =>
    rw [hsign] at hx
    exact Or.inl (hx.symm.trans (by decide +kernel))
  | true =>
    rw [hsign] at hx
    exact Or.inr hx.symm

theorem Binary64.magnitude_negativeZero : negativeZero.magnitude = 0 :=
  magnitude_ofMagnitude true (by decide)

/-- The text of a zero counts as the integer zero, which has no sign. -/
theorem format_float_text_of_zero (escape : Escaper) {w : String} (hzero : x.magnitude = 0)
    (hw : x.literal = .ok w) :
    Marker.float.format escape (.text w) = .ok "0"
      ∧ (x ≠ .negativeZero → w = "0") ∧ (x = .negativeZero → w = "-0") := by
  rcases Binary64.eq_zero_of_magnitude hzero with rfl | rfl
  · have hliteral : (Binary64.ofInt 0).literal = .ok "0" := by decide +kernel
    have hne : Binary64.ofInt 0 ≠ .negativeZero := by decide +kernel
    obtain rfl : w = "0" := Except.ok.inj (hw.symm.trans hliteral)
    refine ⟨?_, fun _ => rfl, fun heq => absurd heq hne⟩
    show Value.formatFloat (.text "0") = .ok "0"
    decide +kernel
  · have hliteral : Binary64.negativeZero.literal = .ok "-0" := by decide +kernel
    obtain rfl : w = "-0" := Except.ok.inj (hw.symm.trans hliteral)
    refine ⟨?_, fun hne => absurd rfl hne, fun _ => rfl⟩
    show Value.formatFloat (.text "-0") = .ok "0"
    decide +kernel

/-- The float marker writes the text of a float again. -/
theorem WritesShortest.format_float (escape : Escaper) {w : String} (h : WritesShortest x n)
    (hfinite : x.isFinite = true) (hw : x.literal = .ok w) (hn : n.Leads w) :
    (x ≠ .negativeZero → Marker.float.format escape (.text w) = .ok w)
      ∧ (x = .negativeZero → w = "-0" ∧ Marker.float.format escape (.text w) = .ok "0") := by
  by_cases hzero : x.magnitude = 0
  · obtain ⟨hformat, hpositive, hnegative⟩ := format_float_text_of_zero escape hzero hw
    refine ⟨fun hx => ?_, fun hx => ⟨hnegative hx, hformat⟩⟩
    rw [hformat, hpositive hx]
  · refine ⟨fun _ => ?_, ?_⟩
    · rw [format_float_of_leads escape hn, h.toBinary64_eq hfinite hzero, hw]
    · rintro rfl
      exact absurd Binary64.magnitude_negativeZero hzero

/-- **Floats read back from their text.** A finite float is written the same at the scalar marker
and at the float marker. All of the text is read as a number. At the float marker the text is
written again as it is, but for `-0`, which is written `0`. At the integer marker it is written as
the float itself is. -/
theorem float_text_reads_back (escape : Escaper) (hfinite : x.isFinite = true) :
    ∃ (w k : String) (n : Numeral), Marker.float.format escape (.float x) = .ok w
      ∧ Marker.scalar.format escape (.float x) = .ok w
      ∧ LeadingNumber.read? (dropWhiteSpace w.toList) = some (n, [])
      ∧ numberEnd (encode (dropWhiteSpace w.toList))
        = .ok (some ((encode w.toList).length, n.isIntegral))
      ∧ (x ≠ .negativeZero → Marker.float.format escape (.text w) = .ok w)
      ∧ (x = .negativeZero → w = "-0" ∧ Marker.float.format escape (.text w) = .ok "0")
      ∧ Marker.integer.format escape (.float x) = .ok k
      ∧ Marker.integer.format escape (.text w) = .ok k := by
  have hliteral := Binary64.literal_of_isFinite hfinite
  generalize x.text sqlNumber = w at hliteral
  -- The text is written from a numeral with the shortest digits; all the parts follow from it.
  obtain ⟨n, hwrites, hw⟩ := Binary64.exists_writesShortest hliteral
  have hspells : n.Spells w.toList := hw ▸ hwrites.layout.wellFormed.spells
  have hleads := hspells.leads
  have hinteger : (Value.text w).toInt64? = some x.toInt64 := by
    rw [Value.toInt64?_text_of_leads hleads, hwrites.toInt64_eq hfinite]
  obtain ⟨hagain, hexception⟩ := hwrites.format_float escape hfinite hliteral hleads
  refine ⟨w, Decimal.integerText x.toInt64.toInt, n, hliteral, hliteral, ?_, ?_, hagain, hexception,
    CommandLine.format_integer_of_some escape rfl,
    CommandLine.format_integer_of_some escape hinteger⟩
  · rw [hspells.dropWhiteSpace, hspells.read?_eq]
  · rw [hspells.dropWhiteSpace, hspells.numberEnd_eq]

/-- A small negative float, written with an exponent. -/
theorem float_text_reads_back_small :
    (Binary64.mk 0xBE8421F5F40D8376).isFinite = true
      ∧ Marker.scalar.format EscapingMode.mysql.escaper (.float ⟨0xBE8421F5F40D8376⟩)
        = .ok "-1.5e-7"
      ∧ Marker.float.format EscapingMode.mysql.escaper (.text "-1.5e-7") = .ok "-1.5e-7"
      ∧ ∃ k n, LeadingNumber.read? (dropWhiteSpace "-1.5e-7".toList) = some (n, [])
        ∧ Marker.integer.format EscapingMode.mysql.escaper (.float ⟨0xBE8421F5F40D8376⟩) = .ok k
        ∧ Marker.integer.format EscapingMode.mysql.escaper (.text "-1.5e-7") = .ok k := by
  have hfinite : (Binary64.mk 0xBE8421F5F40D8376).isFinite = true := by decide +kernel
  have hwritten : (Binary64.mk 0xBE8421F5F40D8376).literal = .ok "-1.5e-7" := by decide +kernel
  obtain ⟨w, k, n, hw, hscalar, hread, -, hagain, -, hinteger, htext⟩ :=
    float_text_reads_back EscapingMode.mysql.escaper hfinite
  obtain rfl : w = "-1.5e-7" := Except.ok.inj (hw.symm.trans hwritten)
  exact ⟨hfinite, hscalar, hagain (by decide +kernel), k, n, hread, hinteger, htext⟩

end SqlTemplate
