import SqlTemplate.Proofs.Format.WrittenNumerals

/-!
The leading number of a text, by its grammar.

A numeral has many spellings: a plus sign shows or not, the letter of the exponent is a small or a
capital one, and the exponent may have leading zeros. `Numeral.Spells` says what they are. The
leading number is the numeral of the longest head of a text, after white space, that spells one
(`Numeral.Leads`). The reader finds exactly this one (`LeadingNumber.ofText?_eq_some_iff`) and
finds none exactly if no head spells a numeral (`LeadingNumber.ofText?_eq_none_iff`): what it takes
spells a numeral, and in front of any text it takes at least a spelling that is there, all parts of
it being read as far as they go.
-/

set_option autoImplicit false

namespace SqlTemplate

open Decimal (ofDigits)

variable {text head tail digits : List Char} {n m : Numeral}

/-! ## Spellings -/

/-- A sign; a plus sign may be left out. -/
inductive SignText : Bool → List Char → Prop where
  | none : SignText false []
  | plus : SignText false ['+']
  | minus : SignText true ['-']

/-- A power of ten with its letter, or nothing. -/
inductive ExponentText : Option Int → List Char → Prop where
  | none : ExponentText none []
  | some {negative : Bool} {letter : Char} {sign digits : List Char}
    (hletter : letter = 'e' ∨ letter = 'E') (hsign : SignText negative sign) (hne : digits ≠ [])
    (hdigits : ∀ c ∈ digits, c.isDigit = true) :
    ExponentText (some (if negative then -(ofDigits digits : Int) else ofDigits digits))
      (letter :: (sign ++ digits))

/-- An exponent needs no sign. -/
theorem ExponentText.unsigned (hne : digits ≠ []) (hdigits : ∀ c ∈ digits, c.isDigit = true) :
    ExponentText (Option.some (ofDigits digits : Int)) ('e' :: digits) :=
  .some (Or.inl rfl) .none hne hdigits

/-- A numeral as text: a sign, digits before and after a point, an exponent. There is a digit before
the point or after it. -/
inductive Numeral.Spells : Numeral → List Char → Prop where
  | intro {n : Numeral} {sign exponent : List Char} (hsign : SignText n.negative sign)
    (hwhole : ∀ c ∈ n.whole, c.isDigit = true)
    (hfraction : ∀ c ∈ n.fractionDigits, c.isDigit = true)
    (hne : n.whole ≠ [] ∨ n.fractionDigits ≠ []) (hexponent : ExponentText n.exponent exponent) :
    n.Spells (sign ++ (n.whole ++ (Numeral.fractionText n.fraction ++ exponent)))

/-! ## What is read is a spelling -/

namespace Numeral

/-- Digits that are read stand at the head of the text. -/
theorem eq_of_readDigits {rest : List Char} (h : readDigits text = (digits, rest)) :
    text = digits ++ rest ∧ ∀ c ∈ digits, c.isDigit = true := by
  obtain ⟨rfl, rfl⟩ := Prod.mk.inj h
  exact ⟨List.takeWhile_append_dropWhile.symm, List.all_eq_true.mp List.all_takeWhile⟩

/-- A sign that is read stands at the head of the text, or there is none. -/
theorem eq_of_readSign {negative : Bool} {rest : List Char}
    (h : readSign text = (negative, rest)) :
    ∃ sign, SignText negative sign ∧ text = sign ++ rest := by
  cases text with
  | nil =>
    obtain ⟨rfl, rfl⟩ := Prod.mk.inj h
    exact ⟨[], .none, rfl⟩
  | cons c text =>
    rw [readSign] at h
    split at h
    · rename_i hminus
      obtain ⟨rfl, rfl⟩ := Prod.mk.inj h
      exact ⟨['-'], .minus, by rw [hminus]; rfl⟩
    split at h
    · rename_i hplus
      obtain ⟨rfl, rfl⟩ := Prod.mk.inj h
      exact ⟨['+'], .plus, by rw [hplus]; rfl⟩
    · obtain ⟨rfl, rfl⟩ := Prod.mk.inj h
      exact ⟨[], .none, rfl⟩

/-- An exponent that is read stands at the head of the text, or there is none. -/
theorem eq_of_readExponent {power : Option Int} {rest : List Char}
    (h : readExponent text = (power, rest)) :
    ∃ exponent, ExponentText power exponent ∧ text = exponent ++ rest := by
  cases text with
  | nil =>
    obtain ⟨rfl, rfl⟩ := Prod.mk.inj h
    exact ⟨[], .none, rfl⟩
  | cons c text =>
    rcases hsign : readSign text with ⟨negative, unsigned⟩
    rcases hread : readDigits unsigned with ⟨digits, after⟩
    obtain ⟨sign, hsigntext, rfl⟩ := eq_of_readSign hsign
    obtain ⟨rfl, hdigits⟩ := eq_of_readDigits hread
    rw [readExponent] at h
    simp only [hsign, hread] at h
    -- Without a letter and a digit behind it nothing is read, not even a sign.
    split at h
    · rename_i hexponent
      obtain ⟨rfl, rfl⟩ := Prod.mk.inj h
      refine ⟨_, .some hexponent.1 hsigntext hexponent.2 hdigits, ?_⟩
      rw [List.cons_append, List.append_assoc]
    · obtain ⟨rfl, rfl⟩ := Prod.mk.inj h
      exact ⟨[], .none, rfl⟩

end Numeral

namespace LeadingNumber

open Numeral

/-- A fraction part that is read stands at the head of the text, with a digit on one side of its
point. -/
theorem eq_of_readFraction {whole rest : List Char} {fraction : Option (List Char)}
    (h : readFraction whole text = (fraction, rest)) :
    text = fractionText fraction ++ rest ∧ (∀ c ∈ fraction.getD [], c.isDigit = true)
      ∧ (fraction ≠ none → whole ≠ [] ∨ fraction.getD [] ≠ []) := by
  cases text with
  | nil =>
    obtain ⟨rfl, rfl⟩ := Prod.mk.inj h
    exact ⟨rfl, nofun, fun hne => absurd rfl hne⟩
  | cons c text =>
    rcases hread : readDigits text with ⟨digits, after⟩
    obtain ⟨rfl, hdigits⟩ := eq_of_readDigits hread
    rw [readFraction] at h
    simp only [hread] at h
    -- A point counts only with a digit on one side.
    split at h
    · rename_i hpoint
      obtain ⟨rfl, rfl⟩ := Prod.mk.inj h
      refine ⟨?_, hdigits, fun _ => hpoint.2⟩
      rw [hpoint.1]
      rfl
    · obtain ⟨rfl, rfl⟩ := Prod.mk.inj h
      exact ⟨rfl, nofun, fun hne => absurd rfl hne⟩

/-- The parts of what is read, one behind the other. -/
theorem read?_of_parts {negative : Bool} {unsigned whole afterWhole rest : List Char}
    {fraction : Option (List Char)} {afterFraction : List Char} {exponent : Option Int}
    (hsign : readSign text = (negative, unsigned))
    (hwhole : readDigits unsigned = (whole, afterWhole))
    (hfraction : readFraction whole afterWhole = (fraction, afterFraction))
    (hexponent : readExponent afterFraction = (exponent, rest)) :
    read? text = if whole = [] ∧ fraction = none then none
      else some (⟨negative, whole, fraction, exponent⟩, rest) := by
  rw [read?]
  simp only [hsign, hwhole, hfraction, hexponent]

/-- What is read spells the numeral. -/
theorem spells_of_read? {rest : List Char} (h : read? text = some (n, rest)) :
    ∃ head, n.Spells head ∧ text = head ++ rest := by
  -- Each part is named with what it leaves over, in the order in which they are read.
  rcases hsign : readSign text with ⟨negative, unsigned⟩
  rcases hwhole : readDigits unsigned with ⟨whole, afterWhole⟩
  rcases hfraction : readFraction whole afterWhole with ⟨fraction, afterFraction⟩
  rcases hexponent : readExponent afterFraction with ⟨exponent, rest'⟩
  rw [read?_of_parts hsign hwhole hfraction hexponent] at h
  obtain ⟨sign, hsigntext, rfl⟩ := eq_of_readSign hsign
  obtain ⟨rfl, hwholedigits⟩ := eq_of_readDigits hwhole
  obtain ⟨rfl, hfractiondigits, hpoint⟩ := eq_of_readFraction hfraction
  obtain ⟨exponenttext, hexponenttext, rfl⟩ := eq_of_readExponent hexponent
  split at h
  · exact absurd h (by simp)
  · rename_i hsome
    obtain ⟨rfl, rfl⟩ := Prod.mk.inj (Option.some.inj h)
    refine ⟨_, .intro hsigntext hwholedigits hfractiondigits ?_ hexponenttext, ?_⟩
    · by_cases hnone : fraction = none
      · exact Or.inl fun hnil => hsome ⟨hnil, hnone⟩
      · exact hpoint hnone
    · simp only [List.append_assoc]

/-! ## What spells a numeral is read -/

/-- Digits are read as far as they go, up to a mark if there is one. -/
theorem exists_readDigits {run mark : List Char} (hrun : ∀ c ∈ run, c.isDigit = true)
    (hmark : ∀ c, mark.head? = some c → c.isDigit = false) (tail : List Char) :
    ∃ run' rest, readDigits (run ++ (mark ++ tail)) = (run', mark ++ rest) ∧ rest <:+ tail
      ∧ (rest = tail → run' = run) ∧ (run ≠ [] → run' ≠ []) := by
  cases mark with
  | nil =>
    have hread : readDigits (run ++ ([] ++ tail))
        = (run ++ tail.takeWhile Char.isDigit, tail.dropWhile Char.isDigit) := by
      rw [List.nil_append, readDigits, List.takeWhile_append_of_pos hrun,
        List.dropWhile_append_of_pos hrun]
    refine ⟨_, _, hread, List.dropWhile_suffix _, fun hrest => ?_,
      fun hne => List.append_ne_nil_of_left_ne_nil hne _⟩
    have hsplit := List.takeWhile_append_dropWhile (p := Char.isDigit) (l := tail)
    rw [hrest, List.append_left_eq_self] at hsplit
    rw [hsplit, List.append_nil]
  | cons c mark =>
    exact ⟨run, tail, readDigits_append hrun hmark, List.suffix_refl _, fun _ => rfl, id⟩

/-- A sign is read in front of what is no sign. -/
theorem readSign_append {negative : Bool} {sign : List Char} (hsign : SignText negative sign)
    (htext : ∀ c, text.head? = some c → c ≠ '-' ∧ c ≠ '+') :
    readSign (sign ++ text) = (negative, text) := by
  cases hsign with
  | plus => rfl
  | minus => rfl
  | none =>
    cases text with
    | nil => rfl
    | cons c rest =>
      rw [List.nil_append, readSign, if_neg (htext c rfl).1, if_neg (htext c rfl).2]

/-- No digit is a sign. -/
theorem ne_sign_of_isDigit {c : Char} (h : c.isDigit = true) : c ≠ '-' ∧ c ≠ '+' := by
  constructor <;>
  · rintro rfl
    exact absurd h (by decide)

/-- Behind its sign a numeral starts with a digit or a point. -/
theorem exists_cons_unsigned (hwhole : ∀ c ∈ n.whole, c.isDigit = true)
    (hne : n.whole ≠ [] ∨ n.fractionDigits ≠ []) (tail : List Char) :
    ∃ c rest, n.whole ++ (fractionText n.fraction ++ tail) = c :: rest
      ∧ (c.isDigit = true ∨ c = '.') := by
  cases hcases : n.whole with
  | cons c whole =>
    rw [hcases] at hwhole
    exact ⟨c, _, List.cons_append, Or.inl (hwhole c List.mem_cons_self)⟩
  | nil =>
    cases hfraction : n.fraction with
    | some digits => exact ⟨'.', _, rfl, Or.inr rfl⟩
    | none => exact absurd hne (by rw [hcases, fractionDigits, hfraction]; simp)

/-- A text that starts with digits starts with a digit. -/
theorem isDigit_of_head? {run : List Char} (hne : run ≠ []) (hrun : ∀ c ∈ run, c.isDigit = true) :
    ∀ c, (run ++ tail).head? = some c → c.isDigit = true := by
  intro c hc
  cases run with
  | nil => exact absurd rfl hne
  | cons d run =>
    obtain rfl := Option.some.inj hc
    exact hrun d List.mem_cons_self

/-- An exponent starts with its letter. -/
theorem head_exponent {power : Option Int} {exponent : List Char}
    (hexponent : ExponentText power exponent) :
    ∀ c, exponent.head? = some c → c.isDigit = false ∧ c ≠ '.' := by
  intro c hc
  cases hexponent with
  | none => exact absurd hc (by simp)
  | some hletter hsign hne hdigits =>
    obtain rfl := Option.some.inj hc
    rcases hletter with rfl | rfl <;> decide

/-- Behind the digits before the point comes a point or the exponent. -/
theorem head_fraction (fraction : Option (List Char)) {power : Option Int} {exponent : List Char}
    (hexponent : ExponentText power exponent) :
    ∀ c, (fractionText fraction ++ exponent).head? = some c → c.isDigit = false := by
  intro c hc
  cases fraction with
  | none => exact (head_exponent hexponent c hc).1
  | some digits =>
    obtain rfl := Option.some.inj hc
    decide

/-- An exponent is read, and maybe further digits behind it. -/
theorem exists_readExponent {power : Option Int} {exponent : List Char}
    (hexponent : ExponentText power exponent) (tail : List Char) :
    ∃ power' rest, readExponent (exponent ++ tail) = (power', rest) ∧ rest <:+ tail
      ∧ (rest = tail → power' = power) := by
  cases hexponent with
  | none =>
    rcases hread : readExponent tail with ⟨power, rest⟩
    obtain ⟨exponent, hexponent, rfl⟩ := eq_of_readExponent hread
    refine ⟨power, rest, hread, List.suffix_append _ _, fun hrest => ?_⟩
    -- If all of the text behind is left over, no exponent has been read from it.
    rw [List.self_eq_append_left] at hrest
    cases hexponent with
    | none => rfl
    | some => exact absurd hrest (List.cons_ne_nil _ _)
  | @some negative letter sign digits hletter hsign hne hdigits =>
    have hmark : ∀ c, ([] : List Char).head? = some c → c.isDigit = false := nofun
    obtain ⟨run, rest, hread, hsuffix, hsame, hrun⟩ := exists_readDigits hdigits hmark tail
    rw [List.nil_append, List.nil_append] at hread
    have hhead : ∀ c, (digits ++ tail).head? = some c → c ≠ '-' ∧ c ≠ '+' :=
      fun c hc => ne_sign_of_isDigit (isDigit_of_head? hne hdigits c hc)
    refine ⟨some (if negative then -(ofDigits run : Int) else ofDigits run), rest, ?_, hsuffix,
      fun hrest => by rw [hsame hrest]⟩
    rw [List.cons_append, List.append_assoc, readExponent]
    simp only [readSign_append hsign hhead, hread]
    exact if_pos ⟨hletter, hrun hne⟩

/-- A fraction part is read, and maybe further digits behind it. -/
theorem exists_readFraction {whole mark : List Char} {fraction : Option (List Char)}
    (hfraction : ∀ c ∈ fraction.getD [], c.isDigit = true)
    (hne : whole ≠ [] ∨ fraction.getD [] ≠ [])
    (hmark : ∀ c, mark.head? = some c → c.isDigit = false ∧ c ≠ '.') (tail : List Char) :
    ∃ fraction' rest, readFraction whole (fractionText fraction ++ (mark ++ tail))
        = (fraction', mark ++ rest) ∧ rest <:+ tail ∧ (rest = tail → fraction' = fraction)
      ∧ (fraction ≠ none → fraction' ≠ none) := by
  cases fraction with
  | some digits =>
    rw [Option.getD_some] at hfraction hne
    obtain ⟨run, rest, hread, hsuffix, hsame, hrun⟩ :=
      exists_readDigits hfraction (fun c hc => (hmark c hc).1) tail
    refine ⟨some run, rest, ?_, hsuffix, fun hrest => by rw [hsame hrest],
      fun _ => Option.some_ne_none run⟩
    rw [fractionText, List.cons_append, readFraction]
    simp only [hread]
    exact if_pos ⟨trivial, hne.imp id hrun⟩
  | none =>
    rw [fractionText, List.nil_append]
    -- Without a fraction part of its own the spelling may find one in the text behind it, unless a
    -- mark stands between them.
    cases mark with
    | cons c mark =>
      refine ⟨none, tail, ?_, List.suffix_refl _, fun _ => rfl, id⟩
      rw [List.cons_append, readFraction]
      exact if_neg fun h => (hmark c rfl).2 h.1
    | nil =>
      rw [List.nil_append]
      rcases hread : readFraction whole tail with ⟨fraction, rest⟩
      obtain ⟨rfl, -, -⟩ := eq_of_readFraction hread
      refine ⟨fraction, rest, rfl, List.suffix_append _ _, fun hrest => ?_,
        fun h => absurd rfl h⟩
      rw [List.self_eq_append_left] at hrest
      cases fraction with
      | none => rfl
      | some digits => exact absurd hrest (List.cons_ne_nil _ _)

/-- **In front of any text a spelling is read,** as a whole or as a part of what is read; and if
nothing of the text behind it is taken, it is read as the numeral that it spells. -/
theorem exists_read?_append (h : n.Spells head) (tail : List Char) :
    ∃ m rest, read? (head ++ tail) = some (m, rest) ∧ rest <:+ tail ∧ (rest = tail → m = n) := by
  cases h with
  | @intro sign exponent hsign hwhole hfraction hne hexponent =>
    have hmark := head_fraction n.fraction hexponent
    -- The parts are read one after the other; each leaves a tail of the tail.
    obtain ⟨whole, tail₁, hread₁, hsuffix₁, hsame₁, hne₁⟩ := exists_readDigits hwhole hmark tail
    obtain ⟨fraction, tail₂, hread₂, hsuffix₂, hsame₂, hne₂⟩ :=
      exists_readFraction hfraction (hne.imp_left hne₁) (head_exponent hexponent) tail₁
    obtain ⟨power, rest, hread₃, hsuffix₃, hsame₃⟩ := exists_readExponent hexponent tail₂
    rw [List.append_assoc, List.append_assoc] at hread₁
    have hpoint : n.whole = [] → n.fraction ≠ none := by
      intro hempty hnone
      refine hne.elim (fun h => h hempty) fun h => h ?_
      rw [fractionDigits, hnone, Option.getD_none]
    have hunsigned : ∀ c, (n.whole ++ (fractionText n.fraction ++ (exponent ++ tail))).head?
        = some c → c ≠ '-' ∧ c ≠ '+' := by
      obtain ⟨d, rest, hcons, hd⟩ := exists_cons_unsigned hwhole hne (exponent ++ tail)
      rw [hcons]
      intro c hc
      obtain rfl := Option.some.inj hc
      rcases hd with hdigit | rfl
      · exact ne_sign_of_isDigit hdigit
      · decide
    have hread := read?_of_parts (readSign_append hsign hunsigned) hread₁ hread₂ hread₃
    refine ⟨⟨n.negative, whole, fraction, power⟩, rest, ?_,
      (hsuffix₃.trans hsuffix₂).trans hsuffix₁, fun hrest => ?_⟩
    · rw [List.append_assoc, List.append_assoc, List.append_assoc, hread, if_neg]
      rintro ⟨hempty, hnone⟩
      exact hne₂ (hpoint (Decidable.byContradiction fun h => hne₁ h hempty)) hnone
    · have hlength₁ := hsuffix₁.length_le
      have hlength₂ := hsuffix₂.length_le
      have hlength₃ := hsuffix₃.length_le
      have hlength := congrArg List.length hrest
      -- No tail got shorter, so nothing was taken of any.
      have h₁ := hsuffix₁.eq_of_length_le (by omega)
      have h₂ := hsuffix₂.eq_of_length_le (by omega)
      have h₃ := hsuffix₃.eq_of_length_le (by omega)
      rw [hsame₁ h₁, hsame₂ h₂, hsame₃ h₃]

/-- A text spells one numeral. -/
theorem eq_of_spells (hn : n.Spells head) (hm : m.Spells head) : n = m := by
  obtain ⟨n', rest, hread, hsuffix, hsame⟩ := exists_read?_append hn []
  obtain ⟨m', rest', hread', hsuffix', hsame'⟩ := exists_read?_append hm []
  rw [List.suffix_nil] at hsuffix hsuffix'
  rw [hread] at hread'
  obtain ⟨h, -⟩ := Prod.mk.inj (Option.some.inj hread')
  rw [← hsame hsuffix, ← hsame' hsuffix', h]

end LeadingNumber

/-! ## The longest head -/

/-- The longest head of a text, after white space, that spells a numeral spells this one. -/
def Numeral.Leads (n : Numeral) (s : String) : Prop :=
  ∃ head, head <+: dropWhiteSpace s.toList ∧ n.Spells head
    ∧ ∀ (m : Numeral) (other : List Char), other <+: dropWhiteSpace s.toList → m.Spells other →
      other.length ≤ head.length

/-- The digits of a leading number are digits. -/
theorem Numeral.Leads.isDigit {s : String} (h : n.Leads s) :
    ∀ c ∈ n.whole ++ n.fractionDigits, c.isDigit = true := by
  obtain ⟨head, -, hhead, -⟩ := h
  cases hhead with
  | intro hsign hwhole hfraction => exact List.forall_mem_append.mpr ⟨hwhole, hfraction⟩

/-- A spelling does not start with white space. -/
theorem Numeral.Spells.dropWhiteSpace (h : n.Spells head) :
    SqlTemplate.dropWhiteSpace head = head := by
  -- A sign, a point and a digit all lie in one range of codes, and no white space does.
  obtain ⟨c, rest, rfl, hc⟩ : ∃ c rest, head = c :: rest ∧ 43 ≤ c.toNat ∧ c.toNat ≤ 57 := by
    cases h with
    | @intro sign exponent hsign hwhole hfraction hne hexponent =>
      obtain ⟨c, rest, hcons, hc⟩ := LeadingNumber.exists_cons_unsigned hwhole hne exponent
      rw [hcons]
      generalize n.negative = negative at hsign
      cases hsign with
      | plus => exact ⟨_, _, rfl, by decide⟩
      | minus => exact ⟨_, _, rfl, by decide⟩
      | none =>
        refine ⟨c, rest, rfl, ?_⟩
        rcases hc with hdigit | rfl
        · have := toNat_of_isDigit hdigit
          omega
        · decide
  rw [SqlTemplate.dropWhiteSpace, List.dropWhile_cons_of_neg]
  rw [isWhiteSpace_eq_false hc]
  exact Bool.false_ne_true

/-- A numeral that a whole text spells leads the text. -/
theorem Numeral.Spells.leads {s : String} (h : n.Spells s.toList) : n.Leads s := by
  have hspace := h.dropWhiteSpace
  refine ⟨s.toList, hspace.symm ▸ List.prefix_refl _, h, fun m other hother _ => ?_⟩
  rw [hspace] at hother
  exact hother.length_le

namespace LeadingNumber

/-- No head of a text, after white space, spells a numeral. -/
def Absent (s : String) : Prop :=
  ∀ (n : Numeral) (head : List Char), head <+: dropWhiteSpace s.toList → ¬ n.Spells head

variable {s : String}

/-- **The reader finds the leading number.** -/
theorem ofText?_eq_some_iff : ofText? s = some n ↔ n.Leads s := by
  rw [ofText?, Option.map_eq_some_iff]
  constructor
  · rintro ⟨⟨m, rest⟩, hread, rfl⟩
    -- What is read is longest: behind any other spelling the reader would have left less.
    obtain ⟨head, hhead, htext⟩ := spells_of_read? hread
    refine ⟨head, ⟨rest, htext.symm⟩, hhead, ?_⟩
    rintro m' other ⟨tail, htail⟩ hother
    obtain ⟨m'', rest', hread', hsuffix, -⟩ := exists_read?_append hother tail
    rw [htail, hread] at hread'
    obtain ⟨-, rfl⟩ := Prod.mk.inj (Option.some.inj hread')
    have hlength := congrArg List.length (htext.symm.trans htail.symm)
    have := hsuffix.length_le
    rw [List.length_append, List.length_append] at hlength
    omega
  · rintro ⟨head, ⟨tail, htail⟩, hhead, hlongest⟩
    -- The longest head leaves nothing more to read behind it.
    obtain ⟨m, rest, hread, hsuffix, hsame⟩ := exists_read?_append hhead tail
    refine ⟨(m, rest), htail ▸ hread, ?_⟩
    obtain ⟨other, hother, htext⟩ := spells_of_read? hread
    have hle := hlongest m other ⟨rest, by rw [← htext, htail]⟩ hother
    have hlength := congrArg List.length htext
    rw [List.length_append, List.length_append] at hlength
    exact hsame (hsuffix.eq_of_length_le (by omega))

/-- The reader finds nothing exactly if no head of the text spells a numeral. -/
theorem ofText?_eq_none_iff : ofText? s = none ↔ Absent s := by
  rw [ofText?, Option.map_eq_none_iff]
  constructor
  · rintro hnone n head ⟨tail, htail⟩ hhead
    obtain ⟨m, rest, hread, -⟩ := exists_read?_append hhead tail
    rw [htail, hnone] at hread
    exact absurd hread (by simp)
  · intro hnone
    cases hread : read? (dropWhiteSpace s.toList) with
    | none => rfl
    | some found =>
      obtain ⟨head, hhead, htext⟩ := spells_of_read? hread
      exact absurd hhead (hnone found.1 head ⟨found.2, htext.symm⟩)

end LeadingNumber

end SqlTemplate
