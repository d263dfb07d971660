import SqlTemplate.Proofs.Binary64.Decimals
import SqlTemplate.Proofs.Format.NumberGrammar

/-!
Numbers that are a whole text.

A reader of a whole text takes all of it or fails: as an integer that fits 64 bits
(`parseInteger?`), or as a float (`parseFloat?`), which may also be a name of infinity or of no
number. What spells a numeral is always a float. It is an integer as well if the numeral is integral
and fits, and if it does not fit, the float clamps to the same end of the 64 bits.
-/

set_option autoImplicit false

namespace SqlTemplate

open Decimal (ofDigits)
open Numeral (readDigits readSign fractionText)

variable {rest text head : List Char} {n : Numeral}

/-! ## Readers of whole texts -/

/-- The integer that a whole text is, if it is one and fits 64 bits. -/
def parseInteger? (text : List Char) : Option Int64 :=
  let (negative, digits) := readSign text
  let number : Int := if negative then -ofDigits digits else ofDigits digits
  if digits ≠ [] ∧ digits.all Char.isDigit ∧ Int64.minValue.toInt ≤ number
      ∧ number ≤ Int64.maxValue.toInt then
    some (Int64.ofInt number)
  else none

/-- The size of a float that is not written in digits. -/
def specialMagnitude? (text : List Char) : Option Nat :=
  let name := String.ofList (text.map Char.toLower)
  if name = "inf" ∨ name = "infinity" then some Binary64.infinityMagnitude
  else if name = "nan" then some (Binary64.infinityMagnitude + Binary64.binade / 2)
  else none

/-- A power of ten that a whole text is, with its letter; also nothing is one. -/
def parsePower? : List Char → Option (Option Int)
  | [] => some none
  | letter :: rest =>
    let (negative, unsigned) := readSign rest
    let (digits, after) := readDigits unsigned
    if (letter = 'e' ∨ letter = 'E') ∧ digits ≠ [] ∧ after = [] then
      some (some (if negative then -ofDigits digits else ofDigits digits))
    else none

/-- A point with the digits behind it, if there is a point. -/
def readPoint : List Char → Option (List Char) × List Char
  | [] => (none, [])
  | c :: rest =>
    if c = '.' then
      let (digits, after) := readDigits rest
      (some digits, after)
    else (none, c :: rest)

/-- Digits with a point among them or beside them, at least one digit, and a power of ten, all of
a text. -/
def parseNumeral? (negative : Bool) (unsigned : List Char) : Option Numeral :=
  let (whole, afterWhole) := readDigits unsigned
  let (fraction, afterFraction) := readPoint afterWhole
  if whole = [] ∧ fraction.getD [] = [] then none
  else (parsePower? afterFraction).map fun power => ⟨negative, whole, fraction, power⟩

/-- The float that a whole text is: infinity, no number, or a numeral, with an optional sign. -/
def parseFloat? (text : List Char) : Option Binary64 :=
  let (negative, unsigned) := readSign text
  match specialMagnitude? unsigned with
  | some magnitude => some (.ofMagnitude negative magnitude)
  | none => (parseNumeral? negative unsigned).map fun n => .ofDecimal n.negative n.decimal

/-! ## Spellings are numbers -/

/-- Behind its sign, the first character of a numeral is a digit or a point. -/
theorem head_unsigned (hwhole : ∀ c ∈ n.whole, c.isDigit = true)
    (hne : n.whole ≠ [] ∨ n.fractionDigits ≠ []) (tail : List Char) :
    ∀ c, (n.whole ++ (fractionText n.fraction ++ tail)).head? = some c →
      c ∈ '.' :: Grammar.digits := by
  obtain ⟨d, rest, hcons, hd⟩ := LeadingNumber.exists_cons_unsigned hwhole hne tail
  rw [hcons]
  intro c hc
  obtain rfl := Option.some.inj hc
  rcases hd with hdigit | rfl
  · exact List.mem_cons_of_mem _ (Grammar.mem_digits.mpr hdigit)
  · exact List.mem_cons_self

/-- The sign of a spelled numeral is read by itself. -/
theorem readSign_of_spells {sign tail : List Char} (hsign : SignText n.negative sign)
    (hwhole : ∀ c ∈ n.whole, c.isDigit = true) (hne : n.whole ≠ [] ∨ n.fractionDigits ≠ []) :
    readSign (sign ++ (n.whole ++ (fractionText n.fraction ++ tail)))
      = (n.negative, n.whole ++ (fractionText n.fraction ++ tail)) := by
  have hnone : ∀ c ∈ '.' :: Grammar.digits, c ≠ '-' ∧ c ≠ '+' :=
    List.all_iff_forall_prop.mp (by decide)
  exact LeadingNumber.readSign_append hsign fun c hc => hnone c (head_unsigned hwhole hne tail c hc)

/-- No name of a special float begins with a digit or a point. -/
theorem specialMagnitude?_eq_none (hne : text ≠ [])
    (h : ∀ c, text.head? = some c → c ∈ '.' :: Grammar.digits) : specialMagnitude? text = none := by
  obtain ⟨c, rest, rfl⟩ := List.exists_cons_of_ne_nil hne
  have hnone : ∀ c ∈ '.' :: Grammar.digits, c.toLower ≠ 'i' ∧ c.toLower ≠ 'n' :=
    List.all_iff_forall_prop.mp (by decide)
  have hc := hnone c (h c rfl)
  have hname : ∀ (d : Char) (name : List Char), c.toLower ≠ d →
      String.ofList ((c :: rest).map Char.toLower) ≠ String.ofList (d :: name) := by
    intro d name hd heq
    exact hd (List.cons.inj (String.ofList_injective heq)).1
  rw [specialMagnitude?, if_neg (not_or.mpr ⟨hname _ _ hc.1, hname _ _ hc.1⟩),
    if_neg (hname _ _ hc.2)]

/-- An exponent by the grammar is parsed as its power. -/
theorem parsePower?_of_exponentText {power : Option Int} (h : ExponentText power text) :
    parsePower? text = some power := by
  cases h with
  | none => rfl
  | @some negative letter sign run hletter hsign hne hrun =>
    have hhead : ∀ c, (run ++ []).head? = some c → c.isDigit = true :=
      LeadingNumber.isDigit_of_head? hne hrun
    have hdigits : Numeral.readDigits (run ++ []) = (run, []) :=
      Numeral.readDigits_append hrun nofun
    rw [List.append_nil] at hhead hdigits
    have hread := LeadingNumber.readSign_append hsign fun c hc =>
      LeadingNumber.ne_sign_of_isDigit (hhead c hc)
    rw [parsePower?]
    simp only [hread, hdigits]
    exact if_pos ⟨hletter, hne, trivial⟩

/-- A fraction part is read up to what is no digit. -/
theorem readPoint_append {fraction : Option (List Char)}
    (hfraction : ∀ c ∈ fraction.getD [], c.isDigit = true)
    (hrest : ∀ c, rest.head? = some c → c.isDigit = false ∧ c ≠ '.') :
    readPoint (fractionText fraction ++ rest) = (fraction, rest) := by
  cases fraction with
  | some run =>
    have hrun : readDigits (run ++ rest) = (run, rest) :=
      Numeral.readDigits_append hfraction fun c hc => (hrest c hc).1
    rw [fractionText, List.cons_append, readPoint, if_pos rfl, hrun]
  | none =>
    rw [fractionText, List.nil_append]
    cases rest with
    | nil => rfl
    | cons c rest => exact if_neg (hrest c rfl).2

/-- **A spelled numeral is parsed as itself.** -/
theorem parseNumeral?_of_spells {exponent : List Char}
    (hwhole : ∀ c ∈ n.whole, c.isDigit = true)
    (hfraction : ∀ c ∈ n.fractionDigits, c.isDigit = true)
    (hne : n.whole ≠ [] ∨ n.fractionDigits ≠ []) (hexponent : ExponentText n.exponent exponent) :
    parseNumeral? n.negative (n.whole ++ (fractionText n.fraction ++ exponent)) = some n := by
  have hread := Numeral.readDigits_append hwhole (LeadingNumber.head_fraction n.fraction hexponent)
  have hpoint := readPoint_append hfraction (LeadingNumber.head_exponent hexponent)
  have hempty : ¬ (n.whole = [] ∧ n.fraction.getD [] = []) := fun h => hne.elim (· h.1) (· h.2)
  rw [parseNumeral?]
  simp only [hread, hpoint]
  rw [if_neg hempty, parsePower?_of_exponentText hexponent]
  rfl

/-- **What spells a numeral is a float,** the one that the numeral is rounded to. -/
theorem parseFloat?_of_spells (h : n.Spells head) :
    parseFloat? head = some (.ofDecimal n.negative n.decimal) := by
  cases h with
  | intro hsign hwhole hfraction hne hexponent =>
    have hhead := head_unsigned hwhole hne
    rw [parseFloat?, readSign_of_spells hsign hwhole hne]
    dsimp only
    rw [specialMagnitude?_eq_none ?_ (hhead _),
      parseNumeral?_of_spells hwhole hfraction hne hexponent]
    · rfl
    · obtain ⟨d, rest, hcons, -⟩ := LeadingNumber.exists_cons_unsigned hwhole hne _
      rw [hcons]
      exact List.cons_ne_nil d rest

/-- What spells an integral numeral is an integer, as long as it fits. -/
theorem parseInteger?_of_spells (h : n.Spells head) (hintegral : n.isIntegral = true) :
    parseInteger? head
      = if Int64.minValue.toInt ≤ n.wholeInt ∧ n.wholeInt ≤ Int64.maxValue.toInt then
          some (Int64.ofInt n.wholeInt)
        else none := by
  rw [Numeral.isIntegral, Bool.and_eq_true, Option.isNone_iff_eq_none, Option.isNone_iff_eq_none]
    at hintegral
  cases h with
  | @intro sign exponent hsign hwhole hfraction hne hexponent =>
    have hread : readSign (sign ++ (n.whole ++ (fractionText n.fraction ++ exponent)))
        = (n.negative, n.whole ++ (fractionText n.fraction ++ exponent)) :=
      readSign_of_spells hsign hwhole hne
    rw [hintegral.2] at hexponent
    rw [Numeral.fractionDigits, hintegral.1] at hne
    rw [hintegral.1] at hread ⊢
    -- An integral numeral has neither point nor exponent, so sign and digits are all of the text.
    cases hexponent with
    | none =>
      rw [fractionText, List.append_nil, List.append_nil] at hread ⊢
      rw [parseInteger?, hread]
      dsimp only
      have hne := hne.resolve_right fun h => h rfl
      have hall := List.all_eq_true.mpr hwhole
      simp only [ne_eq, hne, hall, not_false_eq_true, true_and]
      rfl

/-- An integer from `2 ^ 63` on stays as large as a float, and keeps its sign. -/
theorem Binary64.of_ofDecimal_integer (negative : Bool) {size : Nat} (h : 2 ^ 63 ≤ size) :
    (ofDecimal negative ⟨size, 0⟩).isNegative = negative
      ∧ 2 ^ 63 * one ≤ (ofDecimal negative ⟨size, 0⟩).units := by
  have horder : 0 ≤ Decimal.order ⟨size, 0⟩ := by
    rw [Decimal.order, Decimal.digitCount_eq_log]
    dsimp only
    omega
  have hsmall : ¬ (size = 0 ∨ Decimal.order ⟨size, 0⟩ < -324) := by omega
  rw [ofDecimal, if_neg hsmall]
  split
  · exact ⟨isNegative_ofMagnitude negative infinityMagnitude_lt_signWeight,
      le_units_infinity negative (by decide)⟩
  · refine ⟨isNegative_ofMagnitude negative (roundMagnitude_lt_signWeight _ _),
      le_units_ofFraction negative (Decimal.fraction_pos _) (by decide) ?_⟩
    show 2 ^ 63 * 1 ≤ size * 1
    omega

/-- By way of a float, an integer beyond 64 bits is clamped. -/
theorem toInt64_ofDecimal_of_isIntegral (hintegral : n.isIntegral = true)
    (hout : ¬ (Int64.minValue.toInt ≤ n.wholeInt ∧ n.wholeInt ≤ Int64.maxValue.toInt)) :
    (Binary64.ofDecimal n.negative n.decimal).toInt64 = clampToInt64 n.wholeInt := by
  -- Out of range is at least `2 ^ 63` from zero, on either side.
  have hsize : 2 ^ 63 ≤ ofDigits n.whole := by
    have hmin : Int64.minValue.toInt = -2 ^ 63 := by decide
    have hmax : Int64.maxValue.toInt = 2 ^ 63 - 1 := by decide
    by_contra hsmall
    refine hout ?_
    rw [Numeral.wholeInt]
    split <;> omega
  rw [Numeral.isIntegral, Bool.and_eq_true, Option.isNone_iff_eq_none, Option.isNone_iff_eq_none]
    at hintegral
  have hdecimal : n.decimal = ⟨ofDigits n.whole, 0⟩ := by
    rw [Numeral.decimal, Numeral.countedExponent, Numeral.fractionDigits, hintegral.1, hintegral.2,
      Option.getD_none, Option.getD_none, List.append_nil, if_neg (by decide),
      Numeral.cutExponent_of_lt (by decide)]
    rfl
  obtain ⟨hsign, hunits⟩ := Binary64.of_ofDecimal_integer n.negative hsize
  have hnumber := (Binary64.isNearest_ofDecimal n.negative ⟨ofDigits n.whole, 0⟩).isNumber
  rw [hdecimal, Binary64.toInt64_of_two_pow_63_le hnumber hunits hsize, hsign]
  rfl

end SqlTemplate
