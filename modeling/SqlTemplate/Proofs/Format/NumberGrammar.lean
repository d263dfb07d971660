import SqlTemplate.Proofs.Format.LeadingNumbers
import Mathlib.Computability.RegularExpressions
import Mathlib.Data.Bool.AllAny

/-!
Numbers at the head of a text, as a regular expression.

The expression is the one that the leading number of a text is described by,

    [+-]? (D+ (. D*)? | . D+) ([eE] [+-]? D+)?

and `Grammar.mem_number` says that it matches exactly the texts that spell a numeral. The
numeral is integral if the text has no point and no letter (`Numeral.Spells.isIntegral_iff`). So
the leading number is the longest match at the head of a text, and there is at most one
(`LongestMatch.eq`).
-/

set_option autoImplicit false

namespace SqlTemplate

open Decimal (ofDigits)
open RegularExpression (char)

variable {text : List Char}

/-! ## Expressions over characters -/

namespace Grammar

/-- One of the given characters. -/
def oneOf (cs : List Char) : RegularExpression Char := (cs.map char).sum

/-- An expression that may be left out. -/
def optional (p : RegularExpression Char) : RegularExpression Char := 1 + p

/-- An expression once or more often. -/
def oneOrMore (p : RegularExpression Char) : RegularExpression Char := p * p.star

variable {p : RegularExpression Char} {cs : List Char}

theorem mem_oneOf : text ∈ (oneOf cs).matches' ↔ ∃ c ∈ cs, text = [c] := by
  induction cs with
  | nil => exact iff_of_false (fun h => h) (by simp)
  | cons d cs ih =>
    rw [oneOf, List.map_cons, List.sum_cons, RegularExpression.matches'_add, Language.mem_add,
      ← oneOf, ih, List.exists_mem_cons_iff]
    rfl

theorem mem_optional : text ∈ (optional p).matches' ↔ text = [] ∨ text ∈ p.matches' := by
  rw [optional, RegularExpression.matches'_add, Language.mem_add]
  rfl

/-- Repeating one of some characters gives any text of these characters. -/
theorem mem_star_oneOf : text ∈ (oneOf cs).star.matches' ↔ ∀ c ∈ text, c ∈ cs := by
  rw [RegularExpression.matches'_star, Language.mem_kstar]
  constructor
  · rintro ⟨parts, rfl, hparts⟩ c hc
    obtain ⟨part, hpart, hc⟩ := List.mem_flatten.mp hc
    obtain ⟨d, hd, rfl⟩ := mem_oneOf.mp (hparts part hpart)
    rwa [List.mem_singleton.mp hc]
  · intro h
    refine ⟨text.map fun c => [c], ?_, ?_⟩
    · rw [← List.flatMap_def, List.flatMap_singleton']
    · intro part hpart
      obtain ⟨c, hc, rfl⟩ := List.mem_map.mp hpart
      exact mem_oneOf.mpr ⟨c, h c hc, rfl⟩

/-- One or more of the characters. -/
theorem mem_oneOrMore_oneOf :
    text ∈ (oneOrMore (oneOf cs)).matches' ↔ text ≠ [] ∧ ∀ c ∈ text, c ∈ cs := by
  rw [oneOrMore, RegularExpression.matches'_mul, Language.mem_mul]
  simp only [mem_oneOf, mem_star_oneOf]
  constructor
  · rintro ⟨_, ⟨c, hc, rfl⟩, rest, hrest, rfl⟩
    exact ⟨List.cons_ne_nil _ _, List.forall_mem_cons.mpr ⟨hc, hrest⟩⟩
  · rintro ⟨hne, h⟩
    obtain ⟨c, rest, rfl⟩ := List.exists_cons_of_ne_nil hne
    rw [List.forall_mem_cons] at h
    exact ⟨[c], ⟨c, h.1, rfl⟩, rest, h.2, rfl⟩

/-- The digits. -/
def digits : List Char := ['0', '1', '2', '3', '4', '5', '6', '7', '8', '9']

/-- A digit. -/
def digit : RegularExpression Char := oneOf digits

/-- A sign. -/
def sign : RegularExpression Char := oneOf ['+', '-']

/-- A power of ten. -/
def exponent : RegularExpression Char := oneOf ['e', 'E'] * (optional sign * oneOrMore digit)

/-- Digits with a point or without, at least one of them. -/
def unsigned : RegularExpression Char :=
  oneOrMore digit * optional (char '.' * digit.star) + char '.' * oneOrMore digit

/-- A number. -/
def number : RegularExpression Char := optional sign * (unsigned * optional exponent)

/-! ## The parts of a number -/

/-- The characters that are digits. -/
theorem mem_digits {c : Char} : c ∈ digits ↔ c.isDigit = true := by
  constructor
  · exact fun h => List.all_eq_true.mp (by decide : digits.all Char.isDigit = true) c h
  · intro h
    obtain ⟨hlow, hhigh⟩ := toNat_of_isDigit h
    have hall : ∀ k : Fin 10, Char.ofNat (48 + k) ∈ digits := by decide
    have hc := hall ⟨c.toNat - 48, by omega⟩
    rwa [Nat.add_sub_cancel' hlow, Char.ofNat_toNat] at hc

theorem mem_star_digit : text ∈ digit.star.matches' ↔ ∀ c ∈ text, c.isDigit = true := by
  simp only [digit, mem_star_oneOf, mem_digits]

/-- A run of digits. -/
theorem mem_oneOrMore_digit :
    text ∈ (oneOrMore digit).matches' ↔ text ≠ [] ∧ ∀ c ∈ text, c.isDigit = true := by
  simp only [digit, mem_oneOrMore_oneOf, mem_digits]

theorem mem_optional_sign :
    text ∈ (optional sign).matches' ↔ ∃ negative, SignText negative text := by
  rw [mem_optional, sign, mem_oneOf]
  constructor
  · rintro (rfl | ⟨c, hc, rfl⟩)
    · exact ⟨false, .none⟩
    · rcases List.mem_pair.mp hc with rfl | rfl
      · exact ⟨false, .plus⟩
      · exact ⟨true, .minus⟩
  · rintro ⟨negative, h⟩
    cases h with
    | none => exact Or.inl rfl
    | plus => exact Or.inr ⟨'+', by decide, rfl⟩
    | minus => exact Or.inr ⟨'-', by decide, rfl⟩

theorem mem_optional_exponent :
    text ∈ (optional exponent).matches' ↔ ∃ power, ExponentText power text := by
  rw [mem_optional, exponent, RegularExpression.matches'_mul, Language.mem_mul]
  simp only [mem_oneOf, RegularExpression.matches'_mul, Language.mem_mul, mem_optional_sign,
    mem_oneOrMore_digit]
  constructor
  · rintro (rfl | ⟨_, ⟨letter, hletter, rfl⟩, _, ⟨sign, ⟨negative, hsign⟩, run, ⟨hne, hrun⟩, rfl⟩,
      rfl⟩)
    · exact ⟨none, .none⟩
    · have hpower := ExponentText.some (List.mem_pair.mp hletter) hsign hne hrun
      exact ⟨_, hpower⟩
  · rintro ⟨power, h⟩
    cases h with
    | none => exact Or.inl rfl
    | some hletter hsign hne hrun =>
      exact Or.inr ⟨_, ⟨_, List.mem_pair.mpr hletter, rfl⟩, _, ⟨_, ⟨_, hsign⟩, _, ⟨hne, hrun⟩, rfl⟩,
        rfl⟩

/-- Digits before and after a point, with a digit on one of its sides. -/
theorem mem_unsigned :
    text ∈ unsigned.matches' ↔ ∃ whole fraction, (∀ c ∈ whole, c.isDigit = true)
      ∧ (∀ c ∈ Option.getD fraction [], c.isDigit = true)
      ∧ (whole ≠ [] ∨ Option.getD fraction [] ≠ [])
      ∧ text = whole ++ Numeral.fractionText fraction := by
  rw [unsigned, RegularExpression.matches'_add, Language.mem_add, RegularExpression.matches'_mul,
    RegularExpression.matches'_mul, Language.mem_mul, Language.mem_mul]
  simp only [mem_oneOrMore_digit, mem_optional, RegularExpression.matches'_mul, Language.mem_mul,
    mem_star_digit, RegularExpression.matches'_char]
  constructor
  -- Digits with or without a point behind them, or a point with digits behind it.
  · rintro (⟨whole, ⟨hne, hwhole⟩, _, rfl | ⟨_, rfl, run, hrun, rfl⟩, rfl⟩
      | ⟨_, rfl, run, ⟨hne, hrun⟩, rfl⟩)
    · exact ⟨whole, none, hwhole, nofun, Or.inl hne, rfl⟩
    · exact ⟨whole, some run, hwhole, hrun, Or.inl hne, rfl⟩
    · exact ⟨[], some run, nofun, hrun, Or.inr hne, rfl⟩
  · rintro ⟨whole, fraction, hwhole, hfraction, hne, rfl⟩
    cases fraction with
    | none =>
      exact Or.inl ⟨whole, ⟨hne.resolve_right fun h => h rfl, hwhole⟩, [], Or.inl rfl, rfl⟩
    | some run =>
      by_cases hempty : whole = []
      · subst hempty
        exact Or.inr ⟨['.'], rfl, run, ⟨hne.resolve_left fun h => h rfl, hfraction⟩, rfl⟩
      · exact Or.inl ⟨whole, ⟨hempty, hwhole⟩, _, Or.inr ⟨['.'], rfl, run, hfraction, rfl⟩, rfl⟩

/-- **The expression matches the texts that spell a numeral.** -/
theorem mem_number : text ∈ number.matches' ↔ ∃ n : Numeral, n.Spells text := by
  rw [number, RegularExpression.matches'_mul, Language.mem_mul]
  simp only [mem_optional_sign, RegularExpression.matches'_mul, Language.mem_mul, mem_unsigned,
    mem_optional_exponent]
  constructor
  · rintro ⟨sign, ⟨negative, hsign⟩, _,
      ⟨_, ⟨whole, fraction, hwhole, hfraction, hne, rfl⟩, exponent, ⟨power, hexponent⟩, rfl⟩, rfl⟩
    refine ⟨⟨negative, whole, fraction, power⟩, ?_⟩
    rw [List.append_assoc]
    exact .intro hsign hwhole hfraction hne hexponent
  · rintro ⟨n, h⟩
    cases h with
    | intro hsign hwhole hfraction hne hexponent =>
      refine ⟨_, ⟨_, hsign⟩, _, ⟨_, ⟨_, _, hwhole, hfraction, hne, rfl⟩, _, ⟨_, hexponent⟩, rfl⟩,
        ?_⟩
      rw [List.append_assoc]

end Grammar

/-! ## Integral numerals -/

/-- Behind its sign, a power of ten shows by its letter. -/
theorem ExponentText.eq_none_iff {power : Option Int} (h : ExponentText power text) :
    power = Option.none ↔ ∀ c ∈ text, c ∉ ['.', 'e', 'E'] := by
  cases h with
  | none => exact iff_of_true rfl nofun
  | @some _ letter _ _ hletter =>
    refine iff_of_false (Option.some_ne_none _) fun h => h letter List.mem_cons_self ?_
    rcases hletter with rfl | rfl <;> decide

theorem not_mem_of_isDigit {run : List Char} (h : ∀ c ∈ run, c.isDigit = true) :
    ∀ c ∈ run, c ∉ ['.', 'e', 'E'] := by
  intro c hc hmem
  have hnone : ∀ c ∈ ['.', 'e', 'E'], c.isDigit = false :=
    List.all_iff_forall_prop.mp (by decide)
  exact absurd (h c hc) (by rw [hnone c hmem]; exact Bool.false_ne_true)

/-- A numeral is integral if no point and no letter shows in its text. -/
theorem Numeral.Spells.isIntegral_iff {n : Numeral} (h : n.Spells text) :
    n.isIntegral = true ↔ ∀ c ∈ text, c ∉ ['.', 'e', 'E'] := by
  cases h with
  | @intro sign exponent hsign hwhole hfraction hne hexponent =>
    have hsigns : ∀ c ∈ sign, c ∉ ['.', 'e', 'E'] := by
      generalize n.negative = negative at hsign
      cases hsign <;> exact List.all_iff_forall_prop.mp (by decide)
    have hpoint : n.fraction = none ↔ ∀ c ∈ fractionText n.fraction, c ∉ ['.', 'e', 'E'] := by
      cases n.fraction with
      | none => exact iff_of_true rfl nofun
      | some run =>
        exact iff_of_false (Option.some_ne_none _) fun h => h '.' List.mem_cons_self (by decide)
    rw [List.forall_mem_append, List.forall_mem_append, List.forall_mem_append,
      and_iff_right hsigns, and_iff_right (not_mem_of_isDigit hwhole), ← hpoint,
      ← hexponent.eq_none_iff, isIntegral, Bool.and_eq_true, Option.isNone_iff_eq_none,
      Option.isNone_iff_eq_none]

/-! ## The longest match -/

/-- The longest head of a text that an expression matches. -/
structure LongestMatch (p : RegularExpression Char) (text head : List Char) : Prop where
  isPrefix : head <+: text
  mem : head ∈ p.matches'
  longest : ∀ other, other <+: text → other ∈ p.matches' → other.length ≤ head.length

/-- There is one longest match. -/
theorem LongestMatch.eq {p : RegularExpression Char} {head other : List Char}
    (h : LongestMatch p text head) (hother : LongestMatch p text other) : head = other := by
  have hle := hother.longest head h.isPrefix h.mem
  have hge := h.longest other hother.isPrefix hother.mem
  exact (List.prefix_of_prefix_length_le h.isPrefix hother.isPrefix hle).eq_of_length
    (Nat.le_antisymm hle hge)

/-- The leading number is the one that the longest match spells. -/
theorem Numeral.leads_iff {n : Numeral} {s : String} :
    n.Leads s
      ↔ ∃ head, LongestMatch Grammar.number (dropWhiteSpace s.toList) head ∧ n.Spells head := by
  constructor
  · rintro ⟨head, hfront, hhead, hlongest⟩
    refine ⟨head, ⟨hfront, Grammar.mem_number.mpr ⟨n, hhead⟩, ?_⟩, hhead⟩
    intro other hother hmem
    obtain ⟨m, hm⟩ := Grammar.mem_number.mp hmem
    exact hlongest m other hother hm
  · rintro ⟨head, hlongest, hhead⟩
    exact ⟨head, hlongest.isPrefix, hhead, fun m other hother hm =>
      hlongest.longest other hother (Grammar.mem_number.mpr ⟨m, hm⟩)⟩

/-- There is no leading number if the expression matches no head. -/
theorem LeadingNumber.absent_iff {s : String} :
    Absent s ↔ ∀ head, head <+: dropWhiteSpace s.toList → head ∉ Grammar.number.matches' := by
  simp only [Grammar.mem_number, not_exists]
  exact ⟨fun h head hhead n => h n head hhead, fun h n head hhead => h head hhead n⟩

end SqlTemplate
