import SqlTemplate.LeadingNumber
import SqlTemplate.Proofs.Format.NumberCharacters

/-!
Numerals as text, and reading them back.

`Numeral.written` writes a numeral the way SQL text has it. At the head of a text the leading number
reads back the numeral that was written and stops behind it, if what follows does not go on with the
number (`LeadingNumber.read?_written`). The sign is read first and by itself, so the same holds of
unsigned text behind whatever sign was read (`LeadingNumber.read?_unsigned`). Every number that has
a literal is written as a numeral (`Binary64.exists_numeral_of_literal`,
`Decimal.exists_numeral_integerText`).
-/

set_option autoImplicit false

namespace SqlTemplate

/-- What does not go on with a number that stands in front of it. -/
def EndsNumber (rest : List Char) : Prop :=
  ∀ c, rest.head? = some c → c.isDigit = false ∧ c ≠ '.' ∧ c ≠ 'e' ∧ c ≠ 'E'

variable {run rest text : List Char}

theorem endsNumber_nil : EndsNumber [] := by
  intro c h
  exact absurd h (by simp)

/-- Signs, points and digits lie where there is no white space. -/
theorem isWhiteSpace_eq_false {c : Char} (h : 43 ≤ c.toNat ∧ c.toNat ≤ 57) :
    isWhiteSpace c = false := by
  have hapart : (whiteSpace.all fun range => range.2 < 43 || 57 < range.1) = true := by decide
  rw [List.all_eq_true] at hapart
  rw [isWhiteSpace, CodePoints.contains, List.any_eq_false]
  intro range hrange
  have hrange := hapart range hrange
  rw [Bool.or_eq_true, decide_eq_true_eq, decide_eq_true_eq] at hrange
  rw [Bool.and_eq_true, decide_eq_true_eq, decide_eq_true_eq]
  omega

namespace Numeral

/-! ## Writing -/

/-- The digits after the point, with the point. -/
def fractionText : Option (List Char) → List Char
  | none => []
  | some digits => '.' :: digits

/-- The power of ten, with its letter. -/
def exponentText : Option Int → List Char
  | none => []
  | some power => 'e' :: (Decimal.integerText power).toList

/-- A numeral without its sign. -/
def unsigned (n : Numeral) : List Char :=
  n.whole ++ (fractionText n.fraction ++ exponentText n.exponent)

/-- A numeral; only a minus sign shows. -/
def written (n : Numeral) : List Char :=
  if n.negative then '-' :: n.unsigned else n.unsigned

/-- There is a digit before the point, and the digits are digits. -/
structure WellFormed (n : Numeral) : Prop where
  whole_ne_nil : n.whole ≠ []
  whole : ∀ c ∈ n.whole, c.isDigit = true
  fraction : ∀ digits, n.fraction = some digits → ∀ c ∈ digits, c.isDigit = true

theorem WellFormed.fractionDigits {n : Numeral} (hn : n.WellFormed) :
    ∀ c ∈ n.fractionDigits, c.isDigit = true := by
  cases hpoint : n.fraction with
  | none => simp [Numeral.fractionDigits, hpoint]
  | some digits =>
    rw [Numeral.fractionDigits, hpoint]
    exact hn.fraction digits hpoint

/-- The first character is a sign or a digit. -/
theorem exists_cons_written {n : Numeral} (hn : n.WellFormed) :
    ∃ c tail, n.written = c :: tail ∧ isNumberChar c = true := by
  rw [written]
  split
  · exact ⟨'-', n.unsigned, rfl, rfl⟩
  · cases hwhole : n.whole with
    | nil => exact absurd hwhole hn.whole_ne_nil
    | cons c tail =>
      rw [unsigned, hwhole, List.cons_append]
      exact ⟨c, _, rfl, isNumberChar_of_isDigit (hn.whole c (hwhole ▸ List.mem_cons_self))⟩

/-- Without a point, digits are enough. -/
theorem wellFormed_of_fraction_none {n : Numeral} (hne : n.whole ≠ [])
    (hwhole : ∀ c ∈ n.whole, c.isDigit = true) (h : n.fraction = none) : n.WellFormed := by
  refine ⟨hne, hwhole, fun digits hdigits => ?_⟩
  rw [h] at hdigits
  exact absurd hdigits (by simp)

/-! ## Reading the parts -/

/-- Digits are read up to what is no digit. -/
theorem readDigits_append (hrun : ∀ c ∈ run, c.isDigit = true)
    (hrest : ∀ c, rest.head? = some c → c.isDigit = false) :
    readDigits (run ++ rest) = (run, rest) := by
  rw [readDigits, List.takeWhile_append_of_pos hrun, List.dropWhile_append_of_pos hrun]
  cases rest with
  | nil => rw [List.takeWhile_nil, List.dropWhile_nil, List.append_nil]
  | cons c rest =>
    have hc : ¬ c.isDigit = true := by
      rw [hrest c rfl]
      exact Bool.false_ne_true
    rw [List.takeWhile_cons_of_neg hc, List.dropWhile_cons_of_neg hc, List.append_nil]

/-- A digit at the head is no sign. -/
theorem readSign_digits (hne : run ≠ []) (hrun : ∀ c ∈ run, c.isDigit = true)
    (rest : List Char) : readSign (run ++ rest) = (false, run ++ rest) := by
  cases run with
  | nil => exact absurd rfl hne
  | cons c run =>
    have hc := hrun c List.mem_cons_self
    have hminus : c ≠ '-' := by
      rintro rfl
      exact absurd hc (by decide)
    have hplus : c ≠ '+' := by
      rintro rfl
      exact absurd hc (by decide)
    rw [List.cons_append, readSign, if_neg hminus, if_neg hplus]

/-- The sign and the digits of an integer that was written. -/
theorem readSign_integerText (k : Int) (rest : List Char) :
    readSign ((Decimal.integerText k).toList ++ rest)
      = (decide (k < 0), Decimal.digits k.natAbs ++ rest) := by
  rw [Decimal.integerText, String.toList_ofList]
  split
  · rename_i hneg
    rw [decide_eq_true hneg, List.cons_append, readSign, if_pos rfl]
  · rename_i hneg
    rw [decide_eq_false hneg]
    exact readSign_digits (Decimal.digits_ne_nil _) (Decimal.isDigit_of_mem_digits _) rest

theorem signed_natAbs (k : Int) :
    (if decide (k < 0) = true then -(k.natAbs : Int) else k.natAbs) = k := by
  split
  · rename_i h
    have := of_decide_eq_true h
    omega
  · rename_i h
    have := of_decide_eq_false (Bool.eq_false_iff.mpr h)
    omega

/-- An exponent is read back. -/
theorem readExponent_exponentText (hrest : EndsNumber rest) (power : Option Int) :
    readExponent (exponentText power ++ rest) = (power, rest) := by
  cases power with
  | none =>
    rw [exponentText, List.nil_append]
    cases rest with
    | nil => rfl
    | cons c rest =>
      obtain ⟨-, -, hlower, hupper⟩ := hrest c rfl
      rw [readExponent]
      exact if_neg fun h => h.1.elim hlower hupper
  | some k =>
    have hdigits := readDigits_append (Decimal.isDigit_of_mem_digits k.natAbs)
      fun c hc => (hrest c hc).1
    rw [exponentText, List.cons_append, readExponent]
    simp only [readSign_integerText, hdigits]
    rw [if_pos ⟨Or.inl trivial, Decimal.digits_ne_nil _⟩, Decimal.ofDigits_digits, signed_natAbs]

end Numeral

namespace LeadingNumber

open Numeral

/-- A fraction is read as it was written if no digit follows and, where there is none, no point. -/
theorem readFraction_fractionText {whole : List Char} {fraction : Option (List Char)}
    (hwhole : whole ≠ []) (hfraction : ∀ ds, fraction = some ds → ∀ c ∈ ds, c.isDigit = true)
    (hrest : ∀ c, rest.head? = some c → c.isDigit = false ∧ c ≠ '.') :
    readFraction whole (fractionText fraction ++ rest) = (fraction, rest) := by
  cases fraction with
  | none =>
    rw [fractionText, List.nil_append]
    cases rest with
    | nil => rfl
    | cons c rest =>
      rw [readFraction]
      exact if_neg fun h => (hrest c rfl).2 h.1
  | some ds =>
    have hdigits := readDigits_append (hfraction ds rfl) fun c hc => (hrest c hc).1
    rw [fractionText, List.cons_append, readFraction]
    simp only [hdigits]
    rw [if_pos ⟨trivial, Or.inl hwhole⟩]

theorem head_exponentText (hrest : EndsNumber rest) (power : Option Int) :
    ∀ c, (exponentText power ++ rest).head? = some c → c.isDigit = false ∧ c ≠ '.' := by
  intro c hc
  cases power with
  | none => exact ⟨(hrest c hc).1, (hrest c hc).2.1⟩
  | some k =>
    obtain rfl := Option.some.inj hc
    decide

/-- What stands behind the digits before the point does not start with a digit. -/
theorem head_fractionText (hrest : EndsNumber rest) (n : Numeral) :
    ∀ c, (fractionText n.fraction ++ (exponentText n.exponent ++ rest)).head? = some c →
      c.isDigit = false := by
  intro c hc
  cases hfraction : n.fraction with
  | none =>
    rw [hfraction] at hc
    exact (head_exponentText hrest n.exponent c hc).1
  | some ds =>
    rw [hfraction] at hc
    obtain rfl := Option.some.inj hc
    decide

/-- Behind its sign a numeral is read as it was written. -/
theorem read?_unsigned {n : Numeral} (hn : n.WellFormed) (hrest : EndsNumber rest)
    (hsign : readSign text = (n.negative, n.unsigned ++ rest)) :
    read? text = some (n, rest) := by
  have hwhole : readDigits (n.unsigned ++ rest)
      = (n.whole, fractionText n.fraction ++ (exponentText n.exponent ++ rest)) := by
    rw [unsigned, List.append_assoc, List.append_assoc]
    exact readDigits_append hn.whole (head_fractionText hrest n)
  have hfraction := readFraction_fractionText hn.whole_ne_nil hn.fraction
    (head_exponentText hrest n.exponent)
  rw [read?]
  simp only [hsign, hwhole, hfraction, readExponent_exponentText hrest]
  exact if_neg fun h => hn.whole_ne_nil h.1

/-- **A written numeral is read back,** and nothing behind it. -/
theorem read?_written {n : Numeral} (hn : n.WellFormed) (hrest : EndsNumber rest) :
    read? (n.written ++ rest) = some (n, rest) := by
  apply read?_unsigned hn hrest
  rw [written]
  cases n.negative with
  | false =>
    rw [if_neg Bool.false_ne_true, unsigned, List.append_assoc]
    exact readSign_digits hn.whole_ne_nil hn.whole _
  | true => rfl

end LeadingNumber

/-! ## Numbers as numerals -/

namespace Decimal

open Numeral

/-- An integer is its digits with a sign. -/
theorem exists_numeral_integerText (k : Int) :
    ∃ n : Numeral, n.WellFormed ∧ (integerText k).toList = n.written := by
  refine ⟨⟨decide (k < 0), digits k.natAbs, none, none⟩,
    wellFormed_of_fraction_none (digits_ne_nil _) (isDigit_of_mem_digits _) rfl, ?_⟩
  rw [integerText, String.toList_ofList, written, unsigned, fractionText, exponentText]
  simp only [List.append_nil, decide_eq_true_eq]

theorem isDigit_of_mem_digits_append_zeros (m k : Nat) :
    ∀ c ∈ digits m ++ List.replicate k '0', c.isDigit = true := by
  rw [List.forall_mem_append]
  exact ⟨isDigit_of_mem_digits m, isDigit_of_mem_zeros k⟩

theorem isDigit_of_mem_zeros_append_digits (k m : Nat) :
    ∀ c ∈ List.replicate k '0' ++ digits m, c.isDigit = true := by
  rw [List.forall_mem_append]
  exact ⟨isDigit_of_mem_zeros k, isDigit_of_mem_digits m⟩

/-- How a decimal is laid out: as the digits of its coefficient, with zeros between them and the
point where there is no power of ten. -/
inductive Layout (negative : Bool) (d : Decimal) : Numeral → Prop where
  /-- Before the point, with zeros up to it. -/
  | whole {zeros : Nat} (hexponent : d.exponent = zeros) :
    Layout negative d ⟨negative, digits d.coefficient ++ List.replicate zeros '0', none, none⟩
  /-- On both sides of the point. -/
  | mixed {whole fraction : List Char} (hdigits : digits d.coefficient = whole ++ fraction)
    (hwhole : whole ≠ []) (hfraction : fraction ≠ []) (hexponent : d.exponent = -fraction.length) :
    Layout negative d ⟨negative, whole, some fraction, none⟩
  /-- Behind the point, with zeros from it on. -/
  | below {zeros : Nat} (hexponent : d.exponent = -(zeros + (digits d.coefficient).length : Nat)) :
    Layout negative d
      ⟨negative, ['0'], some (List.replicate zeros '0' ++ digits d.coefficient), none⟩
  /-- One digit and a power of ten. -/
  | single {first : Char} (hdigits : digits d.coefficient = [first]) :
    Layout negative d ⟨negative, [first], none, some d.order⟩
  /-- One digit before the point, the others behind it, and a power of ten. -/
  | pointed {first : Char} {rest : List Char} (hdigits : digits d.coefficient = first :: rest)
    (hrest : rest ≠ []) : Layout negative d ⟨negative, [first], some rest, some d.order⟩

/-- A numeral that lays out a decimal is well formed. -/
theorem Layout.wellFormed {negative : Bool} {d : Decimal} {n : Numeral}
    (h : Layout negative d n) : n.WellFormed := by
  have hdigits := isDigit_of_mem_digits d.coefficient
  -- In every layout the digits come from those of the coefficient and from zeros.
  cases h with
  | whole =>
    exact wellFormed_of_fraction_none (List.append_ne_nil_of_left_ne_nil (digits_ne_nil _) _)
      (isDigit_of_mem_digits_append_zeros _ _) rfl
  | mixed hsplit hwhole =>
    rw [hsplit, List.forall_mem_append] at hdigits
    exact ⟨hwhole, hdigits.1, fun _ hfraction => Option.some.inj hfraction ▸ hdigits.2⟩
  | @below zeros =>
    refine ⟨List.cons_ne_nil _ _, List.forall_mem_singleton.mpr rfl, fun _ hfraction => ?_⟩
    rw [← Option.some.inj hfraction]
    exact isDigit_of_mem_zeros_append_digits zeros d.coefficient
  | single hsplit =>
    rw [hsplit] at hdigits
    exact wellFormed_of_fraction_none (List.cons_ne_nil _ _) hdigits rfl
  | pointed hsplit =>
    rw [hsplit, List.forall_mem_cons] at hdigits
    exact ⟨List.cons_ne_nil _ _, List.forall_mem_singleton.mpr hdigits.1,
      fun _ hfraction => Option.some.inj hfraction ▸ hdigits.2⟩

/-- Plain text lays the decimal out without a power of ten. -/
theorem exists_layout_plain (negative : Bool) (d : Decimal) :
    ∃ n, Layout negative d n ∧ n.negative = negative ∧ n.exponent = none
      ∧ n.unsigned = d.plain [] := by
  rw [plain]
  dsimp only
  split
  · rename_i hwhole
    exact ⟨_, .whole (Int.toNat_of_nonneg hwhole).symm, rfl, rfl, rfl⟩
  split
  -- The point stands inside the digits.
  · rename_i hnegative hbelow
    generalize hcut : (digits d.coefficient).length - (-d.exponent).toNat = cut
    refine ⟨_, .mixed (List.take_append_drop cut _).symm ?_ ?_ ?_, rfl, rfl, ?_⟩
    · rw [Ne, List.take_eq_nil_iff, not_or]
      exact ⟨by omega, digits_ne_nil _⟩
    · rw [Ne, List.drop_eq_nil_iff]
      omega
    · rw [List.length_drop]
      omega
    · rw [unsigned, fractionText, exponentText, List.append_nil]
  · rename_i hnegative hbelow
    -- The point stands in front of all digits, with zeros between.
    generalize hzeros : (-d.exponent).toNat - (digits d.coefficient).length = zeros
    have hexponent : d.exponent = -(zeros + (digits d.coefficient).length : Nat) := by omega
    refine ⟨_, .below hexponent, rfl, rfl, ?_⟩
    rw [unsigned, fractionText, exponentText, List.append_nil]
    rfl

/-- Exponent text lays the decimal out with one digit before the point. -/
theorem exists_layout_scientific (negative : Bool) (d : Decimal) :
    ∃ n, Layout negative d n ∧ n.negative = negative ∧ n.exponent = some d.order
      ∧ n.unsigned = d.scientific := by
  rw [scientific]
  cases hw : digits d.coefficient with
  | nil => exact absurd hw (digits_ne_nil d.coefficient)
  | cons first rest =>
    cases rest with
    | nil => exact ⟨_, .single hw, rfl, rfl, rfl⟩
    | cons second rest => exact ⟨_, .pointed hw (List.cons_ne_nil _ _), rfl, rfl, rfl⟩

end Decimal

/-- A numeral that writes the shortest digits of a float, with its sign, and with a power of ten if
the style asks for one. -/
structure WritesShortest (x : Binary64) (n : Numeral) : Prop where
  layout : x.shortest.Layout x.isNegative n
  sign : n.negative = x.isNegative
  exponent : n.exponent = if x.isPlain sqlNumber then none else some x.shortest.order

/-- The literal of a float is such a numeral. -/
theorem Binary64.exists_writesShortest {x : Binary64} {w : String} (h : x.literal = .ok w) :
    ∃ n, WritesShortest x n ∧ w.toList = n.written := by
  have hbody : ∃ n, x.shortest.Layout x.isNegative n ∧ n.negative = x.isNegative
      ∧ n.exponent = (if x.isPlain sqlNumber then none else some x.shortest.order)
      ∧ n.unsigned = if x.isPlain sqlNumber then x.shortest.plain sqlNumber.places
        else x.shortest.scientific := by
    split
    · exact Decimal.exists_layout_plain x.isNegative x.shortest
    · exact Decimal.exists_layout_scientific x.isNegative x.shortest
  obtain ⟨n, hlayout, hsign, hexponent, hunsigned⟩ := hbody
  refine ⟨n, ⟨hlayout, hsign, hexponent⟩, ?_⟩
  rw [Binary64.literal] at h
  split at h
  · rw [← Except.ok.inj h, Binary64.text, String.toList_ofList, Numeral.written, hsign, hunsigned]
  · exact absurd h (by simp)

/-- A float that has a literal is written as a numeral. -/
theorem Binary64.exists_numeral_of_literal {x : Binary64} {w : String} (h : x.literal = .ok w) :
    ∃ n : Numeral, n.WellFormed ∧ w.toList = n.written := by
  obtain ⟨n, hn, hw⟩ := Binary64.exists_writesShortest h
  exact ⟨n, hn.layout.wellFormed, hw⟩

end SqlTemplate
