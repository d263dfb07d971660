import SqlTemplate.Format
import SqlTemplate.Proofs.Format.FloatTexts
import SqlTemplate.Proofs.Results

/-!
Which values a marker rejects.

`Marker.Rejects` lists what does not fit a marker, each with the error that names it: the shape of
the value where a marker asks for another one, the first item of a list that has no literal or is no
name, and numbers that are not finite. Null and the skip sentinel fit everywhere. Main statement:
formatting fails exactly as listed (`format_eq_error_iff`), so every value that is not listed has a
text, and there is no other error.

At the float marker, text is rejected where its leading number is infinite as a float. As at the
integer marker, an exponent from 655,360 on is not read to its end. It shows only behind more than
65,000 digits (`cut_exponent_is_finite`).
-/

set_option autoImplicit false

namespace SqlTemplate

open Binary64 (IsNearest)

variable {escape : Escaper} {m : Marker} {v : Value} {e : Error} {x : Binary64} {s : String}
  {n : Numeral} {items : List Value} {entries : List (String × Value)}

/-! ## Literals -/

/-- A value that has no literal, and the error that names it. -/
inductive Value.Unquotable : Value → Error → Prop where
  | sequence {items : List Value} : Unquotable (.sequence items) (.unquotable "sequence")
  | mapping {entries : List (String × Value)} :
    Unquotable (.mapping entries) (.unquotable "mapping")
  | skip : Unquotable .skip (.unquotable "skip")
  | infinite {x : Binary64} (h : x.isFinite = false) :
    Unquotable (.float x) (.unquotable "non-finite float")

/-- A float has no literal exactly if it is not finite. -/
theorem Binary64.literal_eq_error_iff :
    x.literal = .error e ↔ x.isFinite = false ∧ e = .unquotable "non-finite float" := by
  rw [literal]
  by_cases h : x.isFinite = true
  · simp [h]
  · rw [if_neg h, Except.error.injEq, eq_comm, and_iff_right (Bool.eq_false_iff.mpr h)]

/-- A value has no literal exactly if it is unquotable, and for this reason. -/
theorem Value.literal_eq_error_iff : v.literal escape = .error e ↔ v.Unquotable e := by
  constructor
  · intro h
    -- The shapes without a literal, each with its own reason; of the floats only those that are not
    -- finite.
    cases v with
    | null | bool | int | text => exact absurd h (by simp [literal])
    | float x =>
      obtain ⟨hfinite, rfl⟩ := Binary64.literal_eq_error_iff.mp h
      exact .infinite hfinite
    | sequence items =>
      obtain rfl := Except.error.inj h
      exact .sequence
    | mapping entries =>
      obtain rfl := Except.error.inj h
      exact .mapping
    | skip =>
      obtain rfl := Except.error.inj h
      exact .skip
  · intro h
    cases h with
    | sequence | mapping | skip => rfl
    | infinite h => exact Binary64.literal_eq_error_iff.mpr ⟨h, rfl⟩

/-- An entry fails exactly if its value has no literal. -/
theorem Value.formatEntry_eq_error_iff {entry : String × Value} :
    formatEntry escape entry = .error e ↔ entry.2.Unquotable e := by
  rw [formatEntry, ← literal_eq_error_iff]
  cases entry.2.literal escape <;> simp [bind, Except.bind, pure, Except.pure]

/-! ## What a marker rejects -/

/-- Which values a marker rejects, and the error that names the misfit. -/
inductive Marker.Rejects : Marker → Value → Error → Prop where
  /-- A list where one scalar is asked for. -/
  | container {m : Marker} {v : Value} (hm : m ∈ [scalar, integer, float])
    (hv : v.kind ∈ [Kind.sequence, .mapping]) : Rejects m v (.shapeMismatch m.text v.kind.name)
  | number {m : Marker} {x : Binary64} (hm : m ∈ [scalar, float]) (h : x.isFinite = false) :
    Rejects m (.float x) (.unquotable "non-finite float")
  /-- Text that leads with a number beyond all floats. An integer is never one, as it is clamped. -/
  | text {s : String} {n : Numeral} {x : Binary64} (hn : n.Leads s) (h : n.isIntegral = false)
    (hx : n.RoundsTo x) (hinfinite : x.magnitude = Binary64.infinityMagnitude) :
    Rejects float (.text s) (.unquotable "non-finite float")
  /-- One scalar where a list is asked for. -/
  | scalar {v : Value} (hv : v.kind ∈ [Kind.boolean, .integer, .float, .string]) :
    Rejects array v (.shapeMismatch "?a" v.kind.name)
  | item {items : List Value} {v : Value} {e : Error} (hv : v.Unquotable e)
    (hfirst : IsFirst (fun v => ∃ e, v.Unquotable e) items v) : Rejects array (.sequence items) e
  | entry {entries : List (String × Value)} {entry : String × Value} {e : Error}
    (hv : entry.2.Unquotable e)
    (hfirst : IsFirst (fun entry => ∃ e, entry.2.Unquotable e) entries entry) :
    Rejects array (.mapping entries) e
  /-- What is neither a name nor a list. -/
  | nameless {v : Value} (hv : v.kind ∈ [Kind.boolean, .integer, .float, .mapping]) :
    Rejects identifier v (.shapeMismatch "?#" v.kind.name)
  | name {items : List Value} {v : Value} (hfirst : IsFirst (fun v => v.kind ≠ .string) items v) :
    Rejects identifier (.sequence items) (.shapeMismatch "?#" v.kind.name)

namespace Marker

/-- The markers that ask for one scalar reject every list, for its shape. -/
theorem rejects_container_iff (hm : m ∈ [scalar, integer, float])
    (hv : v.kind ∈ [Kind.sequence, .mapping]) : m.Rejects v e ↔ m.misfit v = e := by
  constructor
  · intro h
    cases h with
    | container => rfl
    | number | text => simp [Value.kind] at hv
    | scalar | item | entry | nameless | name => simp at hm
  · rintro rfl
    exact .container hm hv

/-- The markers for scalars and floats reject floats that are not finite. -/
theorem rejects_float_iff (hm : m ∈ [scalar, float]) :
    m.Rejects (.float x) e ↔ x.isFinite = false ∧ e = .unquotable "non-finite float" := by
  constructor
  · intro h
    cases h with
    | container hmarker hv => simp [Value.kind] at hv
    | number hmarker hfinite => exact ⟨hfinite, rfl⟩
    | scalar | nameless => simp at hm
  · rintro ⟨hfinite, rfl⟩
    exact .number hm hfinite

/-- The scalar marker fails exactly on what it rejects. -/
theorem formatScalar_eq_error_iff (v : Value) (hnull : v ≠ .null) (hskip : v ≠ .skip) :
    v.formatScalar escape = .error e ↔ Rejects scalar v e := by
  cases v with
  | null => exact absurd rfl hnull
  | skip => exact absurd rfl hskip
  | sequence | mapping =>
    rw [rejects_container_iff (by simp) (by simp [Value.kind]), Value.formatScalar,
      Except.error.injEq]
  | float x => exact Binary64.literal_eq_error_iff.trans (rejects_float_iff (by simp)).symm
  | bool | int | text =>
    refine iff_of_false (by simp [Value.formatScalar, Value.literal]) fun h => ?_
    cases h with
    | container hm hv => simp [Value.kind] at hv

/-- The integer marker fails exactly on what it rejects. -/
theorem formatInteger_eq_error_iff (v : Value) (hnull : v ≠ .null) (hskip : v ≠ .skip) :
    v.formatInteger = .error e ↔ Rejects integer v e := by
  cases v with
  | null => exact absurd rfl hnull
  | skip => exact absurd rfl hskip
  | sequence | mapping =>
    rw [rejects_container_iff (by simp) (by simp [Value.kind]), Value.formatInteger,
      Value.toInt64?, Except.error.injEq]
  | float x =>
    -- A float that is no number counts as zero, and an infinite one as an end of the range.
    refine iff_of_false (by simp [Value.formatInteger, Value.toInt64?]) fun h => ?_
    cases h with
    | container hm hv => simp [Value.kind] at hv
    | number hm hfinite => simp at hm
  | bool | int | text =>
    refine iff_of_false (by simp [Value.formatInteger, Value.toInt64?]) fun h => ?_
    cases h with
    | container hm hv => simp [Value.kind] at hv

/-- Text is written as the float of its leading number, and a clamped integer is never infinite. -/
theorem literal_toBinary64_eq_error_iff (hn : n.Leads s) :
    n.toBinary64.literal = .error e ↔ Rejects float (.text s) e := by
  rw [Binary64.literal_eq_error_iff]
  have hrounds := Numeral.roundsTo_ofDecimal hn.isDigit
  constructor
  · rintro ⟨hinfinite, rfl⟩
    by_cases hintegral : n.isIntegral = true
    · rw [Numeral.toBinary64, if_pos hintegral, Binary64.isFinite_ofInt64] at hinfinite
      exact absurd hinfinite (by simp)
    · rw [Numeral.toBinary64, if_neg hintegral,
        Binary64.isFinite_eq_false_iff hrounds.isNumber] at hinfinite
      exact .text hn (Bool.eq_false_iff.mpr hintegral) hrounds hinfinite
  · intro h
    cases h with
    | container hm hv => simp [Value.kind] at hv
    | @text s n' x hn' hintegral hx hinfinite =>
      -- A text has one leading number, and one float is nearest to it up to the sign of zero.
      obtain rfl : n = n' := Option.some.inj
        ((LeadingNumber.ofText?_eq_some_iff.mpr hn).symm.trans
          (LeadingNumber.ofText?_eq_some_iff.mpr hn'))
      have hmagnitude := Binary64.magnitude_eq_of_value_eq (hrounds.value_eq hx)
      rw [Numeral.toBinary64, if_neg (by rw [hintegral]; exact Bool.false_ne_true),
        Binary64.isFinite_eq_false_iff hrounds.isNumber, hmagnitude]
      exact ⟨hinfinite, rfl⟩

/-- What counts as a finite float does not fail. -/
theorem formatFloat_ne_error (h : v.toBinary64? = some x) (hx : x.isFinite = true) :
    v.formatFloat ≠ .error e := by
  rw [Value.formatFloat, h]
  intro herror
  exact absurd (Binary64.literal_eq_error_iff.mp herror).1 (by simp [hx])

/-- The float marker fails exactly on what it rejects. -/
theorem formatFloat_eq_error_iff (v : Value) (hnull : v ≠ .null) (hskip : v ≠ .skip) :
    v.formatFloat = .error e ↔ Rejects float v e := by
  cases v with
  | null => exact absurd rfl hnull
  | skip => exact absurd rfl hskip
  | text s =>
    cases hn : LeadingNumber.ofText? s with
    | some n =>
      rw [← literal_toBinary64_eq_error_iff (LeadingNumber.ofText?_eq_some_iff.mp hn),
        Value.formatFloat, Value.toBinary64?, hn, Option.elim_some]
    | none =>
      -- A text without a number is written as zero.
      have hzero : (Value.text s).toBinary64? = some (Binary64.ofInt 0) := by
        rw [Value.toBinary64?, hn, Option.elim_none]
      refine iff_of_false (formatFloat_ne_error hzero (Binary64.isFinite_ofInt64 0)) fun h => ?_
      cases h with
      | container hm hv => simp [Value.kind] at hv
      | text hn' =>
        rw [LeadingNumber.ofText?_eq_some_iff.mpr hn'] at hn
        exact absurd hn (by simp)
  | float x => exact Binary64.literal_eq_error_iff.trans (rejects_float_iff (by simp)).symm
  -- Truth values and integers are finite.
  | bool truth =>
    have hfinite : (Binary64.ofInt (if truth then 1 else 0)).isFinite = true := by
      cases truth
      · exact Binary64.isFinite_ofInt64 0
      · exact Binary64.isFinite_ofInt64 1
    refine iff_of_false (formatFloat_ne_error rfl hfinite) fun h => ?_
    cases h with
    | container hm hv => simp [Value.kind] at hv
  | int k =>
    refine iff_of_false (formatFloat_ne_error rfl (Binary64.isFinite_ofInt64 k)) fun h => ?_
    cases h with
    | container hm hv => simp [Value.kind] at hv
  | sequence | mapping =>
    rw [rejects_container_iff (by simp) (by simp [Value.kind]), Value.formatFloat,
      Value.toBinary64?, Except.error.injEq]

theorem map_eq_error_iff {α β : Type} {f : α → β} {result : Except Error α} :
    f <$> result = .error e ↔ result = .error e := by
  cases result <;> simp [Functor.map, Except.map]

/-- The list marker rejects every scalar, for its shape. -/
theorem rejects_array_scalar_iff (hv : v.kind ∈ [Kind.boolean, .integer, .float, .string]) :
    Rejects array v e ↔ array.misfit v = e := by
  constructor
  · intro h
    cases h with
    | container hm | number hm => simp at hm
    | scalar => rfl
    | item | entry => simp [Value.kind] at hv
  · rintro rfl
    exact .scalar hv

/-- The array marker fails exactly on what it rejects. -/
theorem formatArray_eq_error_iff (v : Value) (hnull : v ≠ .null) (hskip : v ≠ .skip) :
    v.formatArray escape = .error e ↔ Rejects array v e := by
  cases v with
  | null => exact absurd rfl hnull
  | skip => exact absurd rfl hskip
  | sequence items =>
    -- The error is that of the first item without a literal.
    rw [Value.formatArray, map_eq_error_iff, mapM_eq_error_iff]
    simp only [Value.literal_eq_error_iff]
    constructor
    · rintro ⟨v, hv, hfirst⟩
      exact .item hv hfirst
    · intro h
      cases h with
      | scalar hv => simp [Value.kind] at hv
      | container hm => simp at hm
      | item hv hfirst => exact ⟨_, hv, hfirst⟩
  | mapping entries =>
    rw [Value.formatArray, map_eq_error_iff, mapM_eq_error_iff]
    simp only [Value.formatEntry_eq_error_iff]
    constructor
    · rintro ⟨entry, hv, hfirst⟩
      exact .entry hv hfirst
    · intro h
      cases h with
      | scalar hv => simp [Value.kind] at hv
      | container hm => simp at hm
      | entry hv hfirst => exact ⟨_, hv, hfirst⟩
  | bool | int | float | text =>
    rw [rejects_array_scalar_iff (by simp [Value.kind])]
    exact ⟨Except.error.inj, congrArg Except.error⟩

/-- A name fails exactly if it is no text. -/
theorem formatName_eq_error_iff :
    v.formatName = .error e ↔ v.kind ≠ .string ∧ e = .shapeMismatch "?#" v.kind.name := by
  cases v with
  | text name => simp [Value.formatName, Value.kind]
  | _ => exact ⟨fun h => ⟨by simp [Value.kind], (Except.error.inj h).symm⟩, fun h => h.2 ▸ rfl⟩

/-- One value that is neither null nor a list is rejected if it is no text. -/
theorem rejects_identifier_iff (hnull : v ≠ .null) (hskip : v ≠ .skip)
    (hsequence : v.kind ≠ .sequence) :
    Rejects identifier v e ↔ v.kind ≠ .string ∧ e = .shapeMismatch "?#" v.kind.name := by
  constructor
  · intro h
    cases h with
    | container hm => simp at hm
    | number hm => simp at hm
    | nameless hv =>
      refine ⟨fun hstring => ?_, rfl⟩
      rw [hstring] at hv
      exact absurd hv (by decide)
    | name => exact absurd rfl hsequence
  · rintro ⟨hstring, rfl⟩
    refine .nameless ?_
    cases v with
    | null => exact absurd rfl hnull
    | skip => exact absurd rfl hskip
    | text => exact absurd rfl hstring
    | sequence => exact absurd rfl hsequence
    | bool | int | float | mapping => simp [Value.kind]

/-- The identifier marker fails exactly on what it rejects. -/
theorem formatIdentifiers_eq_error_iff (v : Value) (hnull : v ≠ .null) (hskip : v ≠ .skip) :
    v.formatIdentifiers = .error e ↔ Rejects identifier v e := by
  -- A list fails at its first item that is no text, and everything else is one name.
  by_cases hsequence : v.kind = .sequence
  · obtain ⟨items, rfl⟩ : ∃ items, v = .sequence items := by
      cases v with
      | sequence items => exact ⟨items, rfl⟩
      | _ => exact absurd hsequence (by simp [Value.kind])
    rw [Value.formatIdentifiers, map_eq_error_iff, mapM_eq_error_iff]
    simp only [formatName_eq_error_iff, exists_and_left, exists_eq, and_true]
    constructor
    · rintro ⟨v, ⟨-, rfl⟩, hfirst⟩
      exact .name hfirst
    · intro h
      cases h with
      | container hm => simp at hm
      | nameless hv => simp [Value.kind] at hv
      | name hfirst => exact ⟨_, ⟨hfirst.holds, rfl⟩, hfirst⟩
  · have hname : v.formatIdentifiers = v.formatName := by
      rw [Value.formatIdentifiers.eq_def]
      split
      · exact absurd rfl hsequence
      · rfl
    rw [hname, formatName_eq_error_iff, rejects_identifier_iff hnull hskip hsequence]

/-- Null and the skip sentinel fit everywhere. -/
theorem not_rejects_null : ¬ m.Rejects .null e := by
  intro h
  cases h with
  | container hm hv => simp [Value.kind] at hv
  | scalar hv => simp [Value.kind] at hv
  | nameless hv => simp [Value.kind] at hv

/-- No marker rejects the skip sentinel. -/
theorem not_rejects_skip : ¬ m.Rejects .skip e := by
  intro h
  cases h with
  | container hm hv => simp [Value.kind] at hv
  | scalar hv => simp [Value.kind] at hv
  | nameless hv => simp [Value.kind] at hv

/-- **A marker fails exactly on what it rejects,** with the error that is listed. -/
theorem format_eq_error_iff : m.format escape v = .error e ↔ m.Rejects v e := by
  by_cases hnull : v = .null
  · subst hnull
    exact iff_of_false nofun not_rejects_null
  by_cases hskip : v = .skip
  · subst hskip
    exact iff_of_false nofun not_rejects_skip
  rw [format.eq_def]
  split
  · exact absurd rfl hnull
  · exact absurd rfl hskip
  · cases m with
    | scalar => exact formatScalar_eq_error_iff v hnull hskip
    | integer => exact formatInteger_eq_error_iff v hnull hskip
    | float => exact formatFloat_eq_error_iff v hnull hskip
    | array => exact formatArray_eq_error_iff v hnull hskip
    | identifier => exact formatIdentifiers_eq_error_iff v hnull hskip

end Marker

/-- **Formatting fails exactly on misfits.** Null and the skip sentinel are written as `NULL` at
every marker. Any other value is written at a marker unless the marker rejects it, and then the
error is the one that names the misfit. -/
theorem format_fails_iff_rejected (escape : Escaper) (m : Marker) (v : Value) :
    m.format escape .null = .ok "NULL" ∧ m.format escape .skip = .ok "NULL"
      ∧ (∀ e, m.format escape v = .error e ↔ m.Rejects v e)
      ∧ ((∃ w, m.format escape v = .ok w) ↔ ∀ e, ¬ m.Rejects v e) := by
  refine ⟨rfl, rfl, fun e => Marker.format_eq_error_iff, ?_⟩
  constructor
  · rintro ⟨w, hw⟩ e he
    rw [Marker.format_eq_error_iff.mpr he] at hw
    exact absurd hw (by simp)
  · intro hnone
    cases hw : m.format escape v with
    | ok w => exact ⟨w, rfl⟩
    | error e => exact absurd (Marker.format_eq_error_iff.mp hw) (hnone e)

/-! ## Exponents that do not count in full -/

/-- Up to so many zeros behind the point, the number `0.00…01e655360` is beyond all floats. -/
theorem isNearest_cutNumeral {zeros : Nat} (h : zeros ≤ 655050) :
    IsNearest (cutNumeral zeros).value (.ofMagnitude false Binary64.infinityMagnitude) := by
  have hvalue : (cutNumeral zeros).value
      = Binary64.signed false ((10 : ℚ) ^ (655360 - (zeros + 1) : Int)) := by
    rw [Numeral.value, size_cutNumeral, Decimal.value, Nat.cast_one, one_mul]
    rfl
  rw [hvalue]
  refine Binary64.isNearest_infinity false (Decimal.ten_zpow_pos _).le ?_
  calc (2 : ℚ) ^ 1024 ≤ 10 ^ (309 : Int) := Binary64.two_pow_1024_le_ten_zpow
    _ ≤ 10 ^ (655360 - (zeros + 1) : Int) := zpow_le_zpow_right₀ (by norm_num) (by omega)

/-- **A cut exponent makes an infinite number finite.** The text `0.00…01e655360` with 65,536 zeros
behind the point leads with a number whose nearest float is infinity. The float marker writes a
tenth. -/
theorem cut_exponent_is_finite :
    (cutNumeral 65536).Leads (cutText 65536) ∧ (cutNumeral 65536).isIntegral = false
      ∧ IsNearest (cutNumeral 65536).value (.ofMagnitude false Binary64.infinityMagnitude)
      ∧ Marker.float.format EscapingMode.mysql.escaper (.text (cutText 65536)) = .ok "0.1"
      ∧ Marker.float.format EscapingMode.mysql.escaper (.text (cutText 65536))
        ≠ .error (.unquotable "non-finite float") := by
  have hleads := leads_cutText 65536
  have htenth : (Binary64.ofDecimal false (Decimal.mk 1 (-1))).literal = .ok "0.1" := by
    decide +kernel
  have hformat : Marker.float.format EscapingMode.mysql.escaper (.text (cutText 65536))
      = .ok "0.1" := by
    have hnot : ¬ (cutNumeral 65536).isIntegral = true := Bool.false_ne_true
    rw [format_float_of_leads _ hleads, Numeral.toBinary64, if_neg hnot, decimal_cutNumeral]
    exact htenth
  refine ⟨hleads, rfl, isNearest_cutNumeral (by decide), hformat, ?_⟩
  rw [hformat]
  simp

end SqlTemplate
