import SqlTemplate.CommandLine.ArgumentText
import SqlTemplate.Proofs.Format.WrittenNumerals
import SqlTemplate.Proofs.Json.Integers

/-!
Integers as arguments.

An integer written with an optional sign and any digits reaches the integer marker unchanged, but
for the clamp to 64 bits (`integer_argument_survives`). As an argument it takes one of two ways:
read as JSON it is an integer or a float, and if JSON has no such number, for its plus sign, its
leading zeros or its size, it is text, which counts by its leading number. Both ways read one
numeral (`DenotesInteger.exists_numeral`), and each counts it as the integer that it denotes.
-/

set_option autoImplicit false

namespace SqlTemplate.CommandLine

open Decimal (ofDigits)

/-- An integer as text: an optional sign and at least one digit. -/
inductive DenotesInteger : List Char → Int → Prop where
  | unsigned {digits : List Char} (hne : digits ≠ []) (hdigits : ∀ c ∈ digits, c.isDigit = true) :
    DenotesInteger digits (ofDigits digits)
  | plus {digits : List Char} (hne : digits ≠ []) (hdigits : ∀ c ∈ digits, c.isDigit = true) :
    DenotesInteger ('+' :: digits) (ofDigits digits)
  | minus {digits : List Char} (hne : digits ≠ []) (hdigits : ∀ c ∈ digits, c.isDigit = true) :
    DenotesInteger ('-' :: digits) (-ofDigits digits)

variable {text digits : List Char} {raw : String} {k : Int} {c : Char}

/-! ## Signs and digits -/

/-- What an integer starts with. -/
def IsSignOrDigit (c : Char) : Prop := c = '+' ∨ c = '-' ∨ c.isDigit = true

theorem IsSignOrDigit.ne {d : Char} (h : IsSignOrDigit c)
    (hd : d ≠ '+' ∧ d ≠ '-' ∧ d.isDigit = false) : c ≠ d := by
  rintro rfl
  rcases h with h | h | h
  · exact hd.1 h
  · exact hd.2.1 h
  · exact absurd h (by rw [hd.2.2]; exact Bool.false_ne_true)

theorem IsSignOrDigit.toNat_bounds (h : IsSignOrDigit c) : 43 ≤ c.toNat ∧ c.toNat ≤ 57 := by
  rcases h with rfl | rfl | h
  · decide
  · decide
  · have hbounds := toNat_of_isDigit h
    omega

/-- Neither a sign nor a digit is white space. -/
theorem IsSignOrDigit.isWhiteSpace (h : IsSignOrDigit c) : isWhiteSpace c = false :=
  isWhiteSpace_eq_false h.toNat_bounds

/-- An integer starts with a sign or a digit, and digits follow. -/
theorem DenotesInteger.exists_cons (h : DenotesInteger text k) :
    ∃ c rest, text = c :: rest ∧ IsSignOrDigit c ∧ ∀ d ∈ rest, d.isDigit = true := by
  cases h with
  | plus hne hdigits => exact ⟨_, _, rfl, Or.inl rfl, hdigits⟩
  | minus hne hdigits => exact ⟨_, _, rfl, Or.inr (Or.inl rfl), hdigits⟩
  | unsigned hne hdigits =>
    cases text with
    | nil => exact absurd rfl hne
    | cons c rest =>
      rw [List.forall_mem_cons] at hdigits
      exact ⟨c, rest, rfl, Or.inr (Or.inr hdigits.1), hdigits.2⟩

/-! ## One numeral -/

/-- The numeral of digits behind a sign. -/
def integerNumeral (negative : Bool) (digits : List Char) : Numeral :=
  ⟨negative, digits, none, none⟩

theorem unsigned_integerNumeral (negative : Bool) (digits : List Char) :
    (integerNumeral negative digits).unsigned = digits := by
  rw [Numeral.unsigned, integerNumeral, Numeral.fractionText, Numeral.exponentText,
    List.append_nil, List.append_nil]

theorem readDigits_digits (hdigits : ∀ c ∈ digits, c.isDigit = true) :
    Numeral.readDigits digits = (digits, []) := by
  have hread : Numeral.readDigits (digits ++ []) = (digits, []) :=
    Numeral.readDigits_append hdigits (by simp)
  rwa [List.append_nil] at hread

/-- Behind the sign that JSON knows, digits are read as their numeral or not at all. -/
theorem eq_of_readNumber? {negative : Bool} {n : Numeral}
    (hsign : (if text.head? = some '-' then (true, text.tail) else (false, text))
      = (negative, digits))
    (hdigits : ∀ c ∈ digits, c.isDigit = true) (h : Json.readNumber? text = some n) :
    n = integerNumeral negative digits := by
  rw [Json.readNumber?, hsign] at h
  dsimp only at h
  rw [readDigits_digits hdigits] at h
  dsimp only at h
  split at h
  · exact absurd h (by simp)
  · exact (Option.some.inj h).symm

/-- JSON has no plus sign in front of numbers. -/
theorem readNumber?_plus (rest : List Char) : Json.readNumber? ('+' :: rest) = none := rfl

/-- **An integer is one numeral,** however it is read. -/
theorem DenotesInteger.exists_numeral (h : DenotesInteger text k) :
    ∃ n : Numeral, n.WellFormed ∧ n.isIntegral = true ∧ n.wholeInt = k
      ∧ Numeral.readSign text = (n.negative, n.unsigned)
      ∧ ∀ m, Json.readNumber? text = some m → m = n := by
  cases h with
  | unsigned hne hdigits =>
    refine ⟨integerNumeral false text, Numeral.wellFormed_of_fraction_none hne hdigits rfl, rfl,
      rfl, ?_, fun m hm => eq_of_readNumber? ?_ hdigits hm⟩
    · have hsign := Numeral.readSign_digits hne hdigits []
      rw [List.append_nil] at hsign
      rw [unsigned_integerNumeral]
      exact hsign
    -- Without a sign the text starts with a digit, so no sign is taken off it.
    · cases text with
      | nil => rfl
      | cons c rest =>
        have hc : c ≠ '-' := by
          rintro rfl
          exact absurd (hdigits '-' List.mem_cons_self) (by decide)
        rw [List.head?_cons, if_neg fun hhead => hc (Option.some.inj hhead)]
  | @plus digits hne hdigits =>
    refine ⟨integerNumeral false digits, Numeral.wellFormed_of_fraction_none hne hdigits rfl, rfl,
      rfl, ?_, fun m hm => ?_⟩
    · rw [unsigned_integerNumeral]
      rfl
    -- With a plus sign the text is no JSON number at all.
    · rw [readNumber?_plus] at hm
      exact absurd hm (by simp)
  | @minus digits hne hdigits =>
    refine ⟨integerNumeral true digits, Numeral.wellFormed_of_fraction_none hne hdigits rfl, rfl,
      rfl, ?_, fun m hm => eq_of_readNumber? rfl hdigits hm⟩
    rw [unsigned_integerNumeral]
    rfl

/-! ## The two ways -/

/-- The first character of an integer begins a number, unless it is a plus sign. -/
theorem step_initial (h : IsSignOrDigit c) :
    Json.step .initial c = if c = '+' then none else some ⟨[], .number [c]⟩ := by
  have hblank : Json.isBlank c = false := by
    simp only [Json.isBlank, Bool.or_eq_false_iff, beq_eq_false_iff_ne]
    exact ⟨⟨⟨h.ne (by decide), h.ne (by decide)⟩, h.ne (by decide)⟩, h.ne (by decide)⟩
  have hbegin : Json.step .initial c = Json.beginValue c [] := by
    show Json.stepBetween [] .value c = _
    rw [Json.stepBetween, hblank, if_neg Bool.false_ne_true]
  -- No sign and no digit begins a container, a string or a word.
  rw [hbegin, Json.beginValue, if_neg (h.ne (by decide)), if_neg (h.ne (by decide)),
    if_neg (h.ne (by decide)), if_neg (h.ne (by decide)), if_neg (h.ne (by decide)),
    if_neg (h.ne (by decide))]
  rcases h with rfl | rfl | hdigit
  · rfl
  · rfl
  · have hplus : c ≠ '+' := by
      rintro rfl
      exact absurd hdigit (by decide)
    rw [if_pos (Or.inr hdigit), if_neg hplus]

/-- As JSON an integer is the number that is read from all of it, or nothing. -/
theorem parse?_eq_number {tree : Json} (h : DenotesInteger raw.toList k)
    (hparse : Json.parse? raw = some tree) :
    ∃ n, Json.readNumber? raw.toList = some n ∧ tree = .number n := by
  obtain ⟨c, rest, htext, hc, hrest⟩ := h.exists_cons
  rw [Json.parse?, htext, Json.run_cons, step_initial hc] at hparse
  by_cases hplus : c = '+'
  · rw [if_pos hplus] at hparse
    exact absurd hparse (by simp)
  · have hnumber := Json.run_number [] [c] fun d hd => Json.isNumberChar_of_isDigit (hrest d hd)
    rw [if_neg hplus, Option.bind_some, hnumber, Option.bind_some, Json.finish_number,
      List.reverse_append, List.reverse_reverse] at hparse
    obtain ⟨n, hread, htree⟩ := Option.map_eq_some_iff.mp hparse
    rw [htext]
    exact ⟨n, hread, htree.symm⟩

/-- As text an integer is its leading number. -/
theorem ofText?_of_denotesInteger (h : DenotesInteger raw.toList k) :
    ∃ n : Numeral, LeadingNumber.ofText? raw = some n ∧ n.isIntegral = true ∧ n.wholeInt = k := by
  obtain ⟨n, hn, hintegral, hwhole, hsign, -⟩ := h.exists_numeral
  obtain ⟨c, rest, htext, hc, -⟩ := h.exists_cons
  have hspace : dropWhiteSpace raw.toList = raw.toList := by
    rw [dropWhiteSpace, htext, List.dropWhile_cons_of_neg]
    rw [hc.isWhiteSpace]
    exact Bool.false_ne_true
  refine ⟨n, ?_, hintegral, hwhole⟩
  rw [LeadingNumber.ofText?, hspace, LeadingNumber.read?_unsigned hn endsNumber_nil]
  · rfl
  · rw [List.append_nil]
    exact hsign

/-! ## The integer marker -/

/-- The text of the 64-bit integer that is nearest to an integer. -/
def clampedText (k : Int) : String :=
  Decimal.integerText (max Int64.minValue.toInt (min Int64.maxValue.toInt k))

/-- What counts as an integer is written as this integer. -/
theorem format_integer_of_some {value : Value} {i : Int64} (escape : Escaper)
    (h : value.toInt64? = some i) :
    Marker.integer.format escape value = .ok (Decimal.integerText i.toInt) := by
  have hformat : value.formatInteger = .ok (Decimal.integerText i.toInt) := by
    rw [Value.formatInteger, h]
  cases value with
  | null | skip => exact absurd h (by simp [Value.toInt64?])
  | bool | int | float | text | sequence | mapping => exact hformat

/-- What counts as a clamped integer is written clamped. -/
theorem format_integer_of_toInt64? {value : Value} (escape : Escaper)
    (h : value.toInt64? = some (clampToInt64 k)) :
    Marker.integer.format escape value = .ok (clampedText k) := by
  rw [format_integer_of_some escape h, clampedText, toInt_clampToInt64]

/-- A text that denotes an integer counts as it, clamped. -/
theorem toInt64?_text (h : DenotesInteger raw.toList k) :
    (Value.text raw).toInt64? = some (clampToInt64 k) := by
  obtain ⟨n, hn, hintegral, hwhole⟩ := ofText?_of_denotesInteger h
  rw [Value.toInt64?, hn, Option.elim_some, Numeral.toInt64, if_pos hintegral, hwhole]

/-- An argument that denotes an integer counts as it, clamped, whether JSON takes it as an integer,
as a float or not at all. -/
theorem toInt64?_argumentValue (h : DenotesInteger raw.toList k) :
    (argumentValue raw).toInt64? = some (clampToInt64 k) := by
  have hskip : raw ≠ skipText := by
    rintro rfl
    obtain ⟨c, rest, htext, hc, -⟩ := h.exists_cons
    exact hc.ne (by decide) (List.cons.inj htext).1.symm
  rw [argumentValue, if_neg hskip]
  cases hvalue : Json.readValue? raw with
  | none =>
    -- A plus sign, leading zeros, or a number beyond all floats.
    exact toInt64?_text h
  | some value =>
    obtain ⟨tree, hparse, hvalue⟩ := Option.bind_eq_some_iff.mp hvalue
    obtain ⟨m, hread, rfl⟩ := parse?_eq_number h hparse
    obtain ⟨n, hn, hintegral, hwhole, -, hjson⟩ := h.exists_numeral
    obtain rfl := hjson m hread
    rw [Option.getD_some, ← hwhole]
    exact Json.toInt64?_of_numberValue? hintegral hn.whole hvalue

/-- **Integers survive the command line.** Written with an optional sign and any digits, an integer
is put in by the integer marker as the 64-bit integer that is nearest to it, be it an argument or
text. -/
theorem integer_argument_survives (escape : Escaper) (h : DenotesInteger raw.toList k) :
    Marker.integer.format escape (argumentValue raw) = .ok (clampedText k)
      ∧ Marker.integer.format escape (.text raw) = .ok (clampedText k) :=
  ⟨format_integer_of_toInt64? escape (toInt64?_argumentValue h),
    format_integer_of_toInt64? escape (toInt64?_text h)⟩

/-- An argument that JSON reads as a float, and text with leading zeros. -/
theorem integer_argument_survives_large :
    Marker.integer.format EscapingMode.mysql.escaper (argumentValue "99999999999999999999")
        = .ok "9223372036854775807"
      ∧ Marker.integer.format EscapingMode.mysql.escaper (.text "-007") = .ok "-7" := by
  have hlarge : DenotesInteger "99999999999999999999".toList
      (ofDigits "99999999999999999999".toList) :=
    .unsigned (by decide) (List.all_eq_true.mp (by decide))
  have hzeros : DenotesInteger "-007".toList (-ofDigits "007".toList) :=
    .minus (by decide) (List.all_eq_true.mp (by decide))
  have hmax : clampedText (ofDigits "99999999999999999999".toList) = "9223372036854775807" := by
    decide +kernel
  have hseven : clampedText (-ofDigits "007".toList) = "-7" := by decide +kernel
  rw [← hmax, ← hseven]
  exact ⟨(integer_argument_survives _ hlarge).1, (integer_argument_survives _ hzeros).2⟩

end SqlTemplate.CommandLine
