import SqlTemplate.Proofs.Format.IntegerTexts

/-!
What the float marker writes for text.

Text counts by its leading number, and what is written is the float nearest to it
(`float_text_keeps_number`). This holds of every number with a point or an exponent, and of integers
of 64 bits. A longer integer is first clamped to 64 bits, as the integer marker asks for, and so the
float marker writes the end of their range in its place, though the same number with a point behind
it is kept (`float_text_saturates`).
-/

set_option autoImplicit false

namespace SqlTemplate

open Decimal (ofDigits)
open Binary64 (IsNearest)

variable {s : String} {n : Numeral} {x y : Binary64} {r : ℚ} {digits : List Char}

/-- At the float marker, the text is written as the float, up to the sign of a zero. -/
def WrittenAs (escape : Escaper) (s : String) (x : Binary64) : Prop :=
  ∃ (y : Binary64) (w : String), y.sameValue x = true ∧ y.literal = .ok w
    ∧ Marker.float.format escape (.text s) = .ok w

/-! ## One number, one float -/

/-- A text with a leading number is written as the float of this number. -/
theorem format_float_of_leads (escape : Escaper) (hn : n.Leads s) :
    Marker.float.format escape (.text s) = n.toBinary64.literal := by
  show Value.formatFloat (.text s) = _
  rw [Value.formatFloat, Value.toBinary64?, LeadingNumber.ofText?_eq_some_iff.mpr hn,
    Option.elim_some]

/-- A finite float has a literal, its text. -/
theorem Binary64.literal_of_isFinite (h : x.isFinite = true) :
    x.literal = .ok (x.text sqlNumber) := by
  rw [literal, if_pos h]

/-- Only the two zeros are different floats of one value. -/
theorem Binary64.eq_of_sameValue (h : x.sameValue y = true) (hy : y.magnitude ≠ 0) : x = y := by
  simp only [sameValue, Bool.and_eq_true, Bool.or_eq_true, beq_iff_eq] at h
  have hbits := h.2.resolve_right fun hzero => hy hzero.2
  cases x
  cases y
  exact congrArg Binary64.mk hbits

/-- What is read as a nearest float is written as any other nearest float. -/
theorem writtenAs_of_isNearest (escape : Escaper) (hn : n.Leads s) (hy : IsNearest r n.toBinary64)
    (hx : IsNearest r x) (hfinite : x.isFinite = true) : WrittenAs escape s x := by
  have hvalue := hy.value_eq hx
  have hfinite' : n.toBinary64.isFinite = true := by
    rwa [Binary64.isFinite, Binary64.magnitude_eq_of_value_eq hvalue]
  have hliteral := Binary64.literal_of_isFinite hfinite'
  exact ⟨n.toBinary64, _, Binary64.sameValue_of_value_eq hy.isNumber hx.isNumber hvalue, hliteral,
    (format_float_of_leads escape hn).trans hliteral⟩

/-- An integral numeral goes by way of 64 bits. -/
theorem Numeral.toBinary64_of_isIntegral (h : n.isIntegral = true) :
    n.toBinary64 = Binary64.ofInt (nearestInt64 n.wholeInt) := by
  rw [toBinary64, if_pos h, toInt_clampToInt64_eq]

/-- The float of a numeral is the nearest one, unless the numeral is an integer of more than 64
bits. -/
theorem Numeral.isNearest_toBinary64 (hdigits : ∀ c ∈ n.whole ++ n.fractionDigits, c.isDigit = true)
    (hfull : n.ReadInFull)
    (hrange : n.isIntegral = true → -2 ^ 63 ≤ n.value ∧ n.value ≤ 2 ^ 63 - 1) :
    IsNearest n.value n.toBinary64 := by
  by_cases hintegral : n.isIntegral = true
  · obtain ⟨hlow, hhigh⟩ := hrange hintegral
    rw [value_of_isIntegral hintegral] at hlow hhigh ⊢
    have hlow' : -2 ^ 63 ≤ n.wholeInt := by exact_mod_cast hlow
    have hhigh' : n.wholeInt ≤ 2 ^ 63 - 1 := by exact_mod_cast hhigh
    rw [toBinary64_of_isIntegral hintegral, nearestInt64_of_mem hlow' hhigh']
    exact Binary64.isNearest_ofInt n.wholeInt
  · rw [toBinary64, if_neg hintegral]
    exact isNearest_value hdigits hfull

/-- **The float marker keeps the number of a text,** if its exponent is read in full. Up to the sign
of a zero it writes the float nearest to the number that leads the text. Integers beyond 64 bits
are written as the end of their range instead. -/
theorem float_text_keeps_number (escape : Escaper) (hn : n.Leads s) (hfull : n.ReadInFull) :
    ((n.isIntegral = true → -2 ^ 63 ≤ n.value ∧ n.value ≤ 2 ^ 63 - 1) →
        ∀ x, IsNearest n.value x → x.isFinite = true → WrittenAs escape s x)
      ∧ (n.isIntegral = true → 2 ^ 63 - 1 < n.value →
        Marker.float.format escape (.text s) = .ok "9.223372036854776e18")
      ∧ (n.isIntegral = true → n.value < -2 ^ 63 →
        Marker.float.format escape (.text s) = .ok "-9.223372036854776e18") := by
  refine ⟨fun hrange x hx hfinite => ?_, fun hintegral hlarge => ?_, fun hintegral hsmall => ?_⟩
  · exact writtenAs_of_isNearest escape hn (Numeral.isNearest_toBinary64 hn.isDigit hfull hrange) hx
      hfinite
  -- Beyond the range the end of the range is written, whatever the number is.
  · have hend : (Binary64.ofInt (2 ^ 63 - 1)).literal = .ok "9.223372036854776e18" := by
      decide +kernel
    rw [Numeral.value_of_isIntegral hintegral] at hlarge
    have hlarge' : 2 ^ 63 - 1 < n.wholeInt := by exact_mod_cast hlarge
    rw [format_float_of_leads escape hn, Numeral.toBinary64_of_isIntegral hintegral,
      nearestInt64_of_gt hlarge', hend]
  · have hend : (Binary64.ofInt (-2 ^ 63)).literal = .ok "-9.223372036854776e18" := by
      decide +kernel
    rw [Numeral.value_of_isIntegral hintegral] at hsmall
    have hsmall' : n.wholeInt < -2 ^ 63 := by exact_mod_cast hsmall
    rw [format_float_of_leads escape hn, Numeral.toBinary64_of_isIntegral hintegral,
      nearestInt64_of_lt hsmall', hend]

/-- A text with a number before other characters. -/
theorem float_text_keeps_number_prefix :
    (Numeral.mk true ['1', '2'] (some ['5', '0']) (some 1)).Leads " -12.50e+1;"
      ∧ (Numeral.mk true ['1', '2'] (some ['5', '0']) (some 1)).ReadInFull
      ∧ ∀ x, IsNearest (Numeral.mk true ['1', '2'] (some ['5', '0']) (some 1)).value x →
        x.isFinite = true → WrittenAs EscapingMode.mysql.escaper " -12.50e+1;" x := by
  have hleads : (Numeral.mk true ['1', '2'] (some ['5', '0']) (some 1)).Leads " -12.50e+1;" :=
    LeadingNumber.ofText?_eq_some_iff.mp (by decide +kernel)
  have hfull : (Numeral.mk true ['1', '2'] (some ['5', '0']) (some 1)).ReadInFull := by
    decide +kernel
  exact ⟨hleads, hfull, (float_text_keeps_number _ hleads hfull).1 fun h => absurd h (by decide)⟩

/-! ## An integer and the same number with a point -/

/-- A number that is written without an exponent is read in full. -/
theorem Numeral.readInFull_of_exponent (h : n.exponent.getD 0 = 0) : n.ReadInFull := by
  rw [ReadInFull, h]
  exact Or.inl (by decide)

/-- Digits behind a sign, with zeros behind the point and the exponent zero. -/
theorem writtenAs_of_digits (escape : Escaper) {negative : Bool} {sign exponent : List Char}
    {fraction : Option (List Char)} {power : Option Int} {k : Nat}
    (hsign : SignText negative sign) (hne : digits ≠ []) (hdigits : ∀ c ∈ digits, c.isDigit = true)
    (hfraction : fraction.getD [] = List.replicate k '0') (hexponent : ExponentText power exponent)
    (hpower : power.getD 0 = 0)
    (hs : s.toList = sign ++ (digits ++ (Numeral.fractionText fraction ++ exponent)))
    (hrange : (Numeral.mk negative digits fraction power).isIntegral = true →
      -2 ^ 63 ≤ Binary64.signed negative (ofDigits digits)
        ∧ Binary64.signed negative (ofDigits digits) ≤ 2 ^ 63 - 1)
    (hx : IsNearest (Binary64.signed negative (ofDigits digits)) x) (hfinite : x.isFinite = true) :
    WrittenAs escape s x := by
  have hzeros : ∀ c ∈ fraction.getD [], c.isDigit = true := by
    rw [hfraction]
    exact Decimal.isDigit_of_mem_zeros k
  have hleads : (Numeral.mk negative digits fraction power).Leads s :=
    Numeral.Spells.leads (hs ▸ .intro hsign hdigits hzeros (Or.inl hne) hexponent)
  -- Zeros behind the point and the exponent zero leave the value of the digits.
  have hvalue : (Numeral.mk negative digits fraction power).value
      = Binary64.signed negative (ofDigits digits) := Numeral.value_of_zeros hfraction hpower
  have hnearest := Numeral.isNearest_toBinary64 hleads.isDigit
    (Numeral.readInFull_of_exponent hpower) (hvalue ▸ hrange)
  exact writtenAs_of_isNearest escape hleads (hvalue ▸ hnearest) hx hfinite

/-- **Digits name one number,** with a point behind them, with a zero behind the point, or with the
exponent zero; and within 64 bits they name it by themselves, too. -/
theorem float_text_tails (escape : Escaper) {negative : Bool} {sign : List Char}
    (hsign : SignText negative sign) (hne : digits ≠ [])
    (hdigits : ∀ c ∈ digits, c.isDigit = true)
    (hx : IsNearest (Binary64.signed negative (ofDigits digits)) x) (hfinite : x.isFinite = true) :
    WrittenAs escape (String.ofList (sign ++ (digits ++ ['.']))) x
      ∧ WrittenAs escape (String.ofList (sign ++ (digits ++ ['.', '0']))) x
      ∧ WrittenAs escape (String.ofList (sign ++ (digits ++ ['e', '0']))) x
      ∧ (-2 ^ 63 ≤ Binary64.signed negative (ofDigits digits)
          ∧ Binary64.signed negative (ofDigits digits) ≤ 2 ^ 63 - 1 →
        WrittenAs escape (String.ofList (sign ++ digits)) x) := by
  have hexponent : ExponentText (some (ofDigits ['0'] : Int)) ['e', '0'] :=
    .unsigned (List.cons_ne_nil _ _) (List.forall_mem_singleton.mpr rfl)
  have hpoint : (some []).getD [] = List.replicate 0 '0' := rfl
  have hplaces : (some ['0']).getD [] = List.replicate 1 '0' := rfl
  have hwhole : (none : Option (List Char)).getD [] = List.replicate 0 '0' := rfl
  -- Only the digits by themselves make an integer, so only they depend on the range.
  refine ⟨?_, ?_, ?_, fun hrange => ?_⟩
  · exact writtenAs_of_digits escape hsign hne hdigits hpoint .none rfl String.toList_ofList
      (fun h => absurd h Bool.false_ne_true) hx hfinite
  · exact writtenAs_of_digits escape hsign hne hdigits hplaces .none rfl String.toList_ofList
      (fun h => absurd h Bool.false_ne_true) hx hfinite
  · exact writtenAs_of_digits escape hsign hne hdigits hwhole hexponent rfl String.toList_ofList
      (fun h => absurd h Bool.false_ne_true) hx hfinite
  · have hs : (String.ofList (sign ++ digits)).toList
        = sign ++ (digits ++ (Numeral.fractionText none ++ [])) := by
      rw [String.toList_ofList, Numeral.fractionText, List.append_nil, List.append_nil]
    exact writtenAs_of_digits escape hsign hne hdigits hwhole .none rfl hs (fun _ => hrange) hx
      hfinite

/-- The number `99999999999999999999`. -/
def twentyNines : Numeral :=
  ⟨false, List.replicate 20 '9', none, none⟩

/-- **Integers beyond 64 bits are not kept,** though their float is finite and they are kept with a
point behind them. -/
theorem float_text_saturates :
    twentyNines.Leads "99999999999999999999" ∧ twentyNines.ReadInFull
      ∧ IsNearest twentyNines.value (Binary64.ofInt 99999999999999999999)
      ∧ (Binary64.ofInt 99999999999999999999).isFinite = true
      ∧ ¬ WrittenAs EscapingMode.mysql.escaper "99999999999999999999"
        (Binary64.ofInt 99999999999999999999)
      ∧ Marker.float.format EscapingMode.mysql.escaper (.text "99999999999999999999")
        = .ok "9.223372036854776e18"
      ∧ Marker.float.format EscapingMode.mysql.escaper (.text "99999999999999999999.")
        = .ok "1e20" := by
  have hleads : twentyNines.Leads "99999999999999999999" :=
    LeadingNumber.ofText?_eq_some_iff.mp (by decide +kernel)
  have hformat : Marker.float.format EscapingMode.mysql.escaper (.text "99999999999999999999")
      = .ok "9.223372036854776e18" := by decide +kernel
  have hwhole : twentyNines.wholeInt = 99999999999999999999 := by decide +kernel
  have hnearest : IsNearest twentyNines.value (Binary64.ofInt 99999999999999999999) := by
    rw [Numeral.value_of_isIntegral rfl, hwhole]
    exact Binary64.isNearest_ofInt _
  have hnot : (Binary64.ofInt 99999999999999999999).literal = .ok "1e20" := by decide +kernel
  refine ⟨hleads, by decide +kernel, hnearest, by decide +kernel, ?_, hformat, by decide +kernel⟩
  -- A float of the same value would have been written `1e20`.
  rintro ⟨y, w, hsame, hliteral, hwritten⟩
  rw [Binary64.eq_of_sameValue hsame (by decide +kernel), hnot] at hliteral
  rw [hformat, ← hliteral] at hwritten
  exact absurd hwritten (by decide)

end SqlTemplate
