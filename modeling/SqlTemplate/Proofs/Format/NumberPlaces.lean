import SqlTemplate.Format
import SqlTemplate.Proofs.Format.CharacterBytes
import SqlTemplate.Proofs.Format.WholeNumbers

/-!
The leading number, found by places in the bytes of a text.

A text is a sequence of bytes, and a number at its head can be found by looking at single bytes and
by counting digits from a place on (`numberEnd`). What is cut off there is read as an integer of 64
bits or as a float, by readers that take a whole text or fail (`parseInteger?`, `parseFloat?`). Such
a reading has three ways to go wrong that a reader of characters does not have: a place beyond the
end of the bytes, a place inside a character, and a head that is cut off but refused by the reader
of its number. `numberAtHead_spec` says that none of them comes about on any text, and that what is
found is the leading number: none if the expression `Grammar.number` matches no head, and otherwise
the longest match, an integer if it has neither point nor exponent and a float if it has.

The characters of a number all take one byte, so that up to its end places in the bytes are places
in the characters, and no byte of a longer character is taken for one of them. Each step of the
search is followed along with the reader of characters, which is known to find the longest match.
-/

set_option autoImplicit false

namespace SqlTemplate

open Numeral (readDigits readSign readExponent fractionText)
open LeadingNumber (readFraction read?)

variable {pre l rest text head : List Char} {c : Char} {n : Numeral}

/-! ## The search -/

/-- A place that a text does not have: beyond its end, or inside a character. -/
inductive BadPlace where
  | beyond
  | inside
  deriving DecidableEq, Repr

/-- How many digits stand from a place on. -/
def digitsFrom (bytes : List UInt8) (place : Nat) : Except BadPlace Nat :=
  if place ≤ bytes.length then .ok ((bytes.drop place).takeWhile isDigitByte).length
  else .error .beyond

/-- How many bytes the sign at a place takes. -/
def signWidth (bytes : List UInt8) (place : Nat) : Nat :=
  if bytes[place]? = some '+'.toUInt8 ∨ bytes[place]? = some '-'.toUInt8 then 1 else 0

/-- How many digits stand behind the point at a place, where the fraction ends, and whether it is
none. A point between no digits is not taken. -/
def fractionEnd (bytes : List UInt8) (whole place : Nat) : Except BadPlace (Nat × Nat × Bool) :=
  if bytes[place]? = some '.'.toUInt8 then do
    let digits ← digitsFrom bytes (place + 1)
    return if 0 < whole ∨ 0 < digits then (digits, place + 1 + digits, false) else (0, place, true)
  else return (0, place, true)

/-- Where the exponent at a place ends, and whether it is none. A letter that no exponent follows is
not taken. -/
def exponentEnd (bytes : List UInt8) (place : Nat) : Except BadPlace (Nat × Bool) :=
  if bytes[place]? = some 'e'.toUInt8 ∨ bytes[place]? = some 'E'.toUInt8 then do
    let start := place + 1 + signWidth bytes (place + 1)
    let digits ← digitsFrom bytes start
    return if 0 < digits then (start + digits, false) else (place, true)
  else return (place, true)

/-- Where the number at the head ends, and whether it is integral. -/
def numberEnd (bytes : List UInt8) : Except BadPlace (Option (Nat × Bool)) := do
  let start := signWidth bytes 0
  let whole ← digitsFrom bytes start
  let (digits, place, noFraction) ← fractionEnd bytes whole (start + whole)
  if whole = 0 ∧ digits = 0 then return none
  else
    let (place, noExponent) ← exponentEnd bytes place
    return some (place, noFraction && noExponent)

/-- The head of a text up to a place in its bytes. -/
def cutAt : List Char → Nat → Except BadPlace (List Char)
  | [], place => if place = 0 then .ok [] else .error .beyond
  | c :: rest, place =>
    if place = 0 then .ok []
    else if c.utf8Size ≤ place then (c :: ·) <$> cutAt rest (place - c.utf8Size)
    else .error .inside

/-! ## The search, step by step -/

/-- Counting digits by places is reading digits. -/
theorem digitsFrom_encode (h : Ascii pre) (l : List Char) :
    digitsFrom (encode (pre ++ l)) pre.length = .ok (readDigits l).1.length := by
  rw [digitsFrom, if_pos (length_le_encode h l), drop_encode h, length_takeWhile_encode]
  rfl

/-- The byte at a place is that of the next character, if this is a short one. -/
theorem getElem?_encode_eq_some_iff {a : Char} (h : Ascii pre) (ha : a.toNat < 128) :
    (encode (pre ++ l))[pre.length]? = some a.toUInt8 ↔ l.head? = some a := by
  rw [getElem?_encode h, head?_encode_eq_some_iff ha]

theorem SignText.ascii {negative : Bool} {sign : List Char} (h : SignText negative sign) :
    Ascii sign := by
  cases h with
  | none => exact nofun
  | plus | minus => exact List.forall_mem_singleton.mpr (by decide)

/-- The width of the sign is that of the sign that is read. -/
theorem signWidth_encode (h : Ascii pre) {negative : Bool} {unsigned : List Char}
    (hread : readSign l = (negative, unsigned)) :
    ∃ sign, SignText negative sign ∧ l = sign ++ unsigned
      ∧ signWidth (encode (pre ++ l)) pre.length = sign.length := by
  have hplus : (encode (pre ++ l))[pre.length]? = some '+'.toUInt8 ↔ l.head? = some '+' :=
    getElem?_encode_eq_some_iff h (by decide)
  have hminus : (encode (pre ++ l))[pre.length]? = some '-'.toUInt8 ↔ l.head? = some '-' :=
    getElem?_encode_eq_some_iff h (by decide)
  obtain ⟨sign, hsign, rfl⟩ := Numeral.eq_of_readSign hread
  refine ⟨sign, hsign, rfl, ?_⟩
  rw [signWidth]
  cases hsign with
  | plus => exact if_pos (Or.inl (hplus.mpr rfl))
  | minus => exact if_pos (Or.inr (hminus.mpr rfl))
  | none =>
    refine if_neg ?_
    rw [hplus, hminus]
    -- A sign at the head would have been read.
    rintro (hhead | hhead) <;>
    · obtain ⟨tail, htail⟩ := List.head?_eq_some_iff.mp hhead
      rw [List.nil_append] at htail
      subst htail
      exact absurd (congrArg (·.2.length) hread) (by simp [readSign])

/-- Behind a point digits are counted, and the point is taken if there is one before or after it. -/
theorem fractionEnd_of_point (h : Ascii pre) {whole : List Char} {fraction : Option (List Char)}
    (hread : readFraction whole ('.' :: l) = (fraction, rest)) :
    fractionEnd (encode (pre ++ '.' :: l)) whole.length pre.length
      = .ok ((fraction.getD []).length, pre.length + (fractionText fraction).length,
          fraction.isNone) := by
  have hbyte : (encode (pre ++ '.' :: l))[pre.length]? = some '.'.toUInt8 :=
    (getElem?_encode_eq_some_iff h (by decide)).mpr rfl
  have hpre : Ascii (pre ++ ['.']) :=
    ascii_append.mpr ⟨h, List.forall_mem_singleton.mpr (by decide)⟩
  have hdigits := digitsFrom_encode hpre l
  rw [List.append_assoc, List.singleton_append, List.length_append, List.length_singleton]
    at hdigits
  rcases hrun : readDigits l with ⟨run, after⟩
  rw [readFraction] at hread
  simp only [hrun, true_and] at hread
  rw [fractionEnd, if_pos hbyte, hdigits, hrun]
  show Except.ok (if 0 < whole.length ∨ 0 < run.length then _ else _) = _
  simp only [List.length_pos_iff]
  -- Both sides take the point if there is a digit on one side of it.
  split at hread
  · rename_i hdigit
    obtain ⟨rfl, rfl⟩ := Prod.mk.inj hread
    rw [if_pos hdigit, fractionText, List.length_cons]
    simp only [Option.getD_some, Option.isNone_some, Nat.add_assoc, Nat.add_comm 1]
  · rename_i hnone
    obtain ⟨rfl, rfl⟩ := Prod.mk.inj hread
    rw [if_neg hnone]
    rfl

/-- The end of the fraction part is where reading it stops. -/
theorem fractionEnd_encode (h : Ascii pre) {whole : List Char} {fraction : Option (List Char)}
    (hread : readFraction whole l = (fraction, rest)) :
    fractionEnd (encode (pre ++ l)) whole.length pre.length
      = .ok ((fraction.getD []).length, pre.length + (fractionText fraction).length,
          fraction.isNone) := by
  by_cases hhead : l.head? = some '.'
  · obtain ⟨l, rfl⟩ := List.head?_eq_some_iff.mp hhead
    exact fractionEnd_of_point h hread
  · have hnone : fraction = none := by
      cases l with
      | nil => exact (Prod.mk.inj hread).1.symm
      | cons c l =>
        have hc : ¬ c = '.' := fun hc => hhead (congrArg some hc)
        exact (Prod.mk.inj (hread.symm.trans (if_neg fun hboth => hc hboth.1))).1
    have hbyte := mt (getElem?_encode_eq_some_iff h (by decide)).mp hhead
    rw [fractionEnd, if_neg hbyte, hnone]
    rfl

/-- Behind a letter digits are counted, and the letter is taken if there are any. -/
theorem exponentEnd_of_letter (h : Ascii pre) {letter : Char} {power : Option Int}
    (hletter : letter = 'e' ∨ letter = 'E') (hread : readExponent (letter :: l) = (power, rest)) :
    ∃ exponent, ExponentText power exponent ∧ letter :: l = exponent ++ rest
      ∧ exponentEnd (encode (pre ++ letter :: l)) pre.length
        = .ok (pre.length + exponent.length, power.isNone) := by
  have hsmall : letter.toNat < 128 := by rcases hletter with rfl | rfl <;> decide
  have hbyte : (encode (pre ++ letter :: l))[pre.length]? = some 'e'.toUInt8
      ∨ (encode (pre ++ letter :: l))[pre.length]? = some 'E'.toUInt8 := by
    rw [(getElem?_encode_eq_some_iff h hsmall).mpr rfl]
    exact hletter.imp (congrArg fun c => some (Char.toUInt8 c))
      (congrArg fun c => some (Char.toUInt8 c))
  -- Sign and digits are looked for behind the letter, so what is in front grows by each of them.
  have hpre : Ascii (pre ++ [letter]) :=
    ascii_append.mpr ⟨h, List.forall_mem_singleton.mpr hsmall⟩
  rcases hsign : readSign l with ⟨negative, unsigned⟩
  rcases hrun : readDigits unsigned with ⟨run, after⟩
  rw [readExponent] at hread
  simp only [hsign, hrun] at hread
  obtain ⟨sign, hsigntext, rfl, hwidth⟩ := signWidth_encode hpre hsign
  have hdigits := digitsFrom_encode (ascii_append.mpr ⟨hpre, hsigntext.ascii⟩) unsigned
  rw [List.append_assoc, List.singleton_append, List.length_append, List.length_singleton]
    at hwidth
  rw [List.append_assoc, List.append_assoc, List.singleton_append, List.length_append,
    List.length_append, List.length_singleton, hrun] at hdigits
  obtain ⟨rfl, hrundigits⟩ := Numeral.eq_of_readDigits hrun
  rw [exponentEnd, if_pos hbyte]
  simp only [hwidth, hdigits]
  show ∃ exponent, _ ∧ _ ∧ Except.ok (if 0 < run.length then _ else _) = _
  simp only [List.length_pos_iff]
  split at hread
  · rename_i hexponent
    obtain ⟨rfl, rfl⟩ := Prod.mk.inj hread
    refine ⟨_, .some hletter hsigntext hexponent.2 hrundigits, ?_, ?_⟩
    · rw [List.cons_append, List.append_assoc]
    · rw [if_pos hexponent.2, List.length_cons, List.length_append]
      simp only [Option.isNone_some, Nat.add_assoc, Nat.add_comm 1]
  · rename_i hnone
    obtain ⟨rfl, rfl⟩ := Prod.mk.inj hread
    refine ⟨[], .none, rfl, ?_⟩
    rw [if_neg fun hne => hnone ⟨hletter, hne⟩]
    rfl

/-- The end of the exponent is where reading it stops. -/
theorem exponentEnd_encode (h : Ascii pre) {power : Option Int}
    (hread : readExponent l = (power, rest)) :
    ∃ exponent, ExponentText power exponent ∧ l = exponent ++ rest
      ∧ exponentEnd (encode (pre ++ l)) pre.length
        = .ok (pre.length + exponent.length, power.isNone) := by
  by_cases hhead : l.head? = some 'e' ∨ l.head? = some 'E'
  · obtain ⟨letter, hletter, hcons⟩ :
        ∃ letter, (letter = 'e' ∨ letter = 'E') ∧ l.head? = some letter :=
      hhead.elim (fun h => ⟨_, Or.inl rfl, h⟩) fun h => ⟨_, Or.inr rfl, h⟩
    obtain ⟨l, rfl⟩ := List.head?_eq_some_iff.mp hcons
    exact exponentEnd_of_letter h hletter hread
  -- Without a letter at the head neither side finds an exponent.
  · have hbyte : ¬ ((encode (pre ++ l))[pre.length]? = some 'e'.toUInt8
        ∨ (encode (pre ++ l))[pre.length]? = some 'E'.toUInt8) := by
      rwa [getElem?_encode_eq_some_iff h (by decide), getElem?_encode_eq_some_iff h (by decide)]
    obtain ⟨exponent, hexponent, rfl⟩ := Numeral.eq_of_readExponent hread
    rw [exponentEnd, if_neg hbyte]
    refine ⟨exponent, hexponent, rfl, ?_⟩
    cases hexponent with
    | none => rfl
    | some hletter =>
      refine absurd ?_ hhead
      exact hletter.imp (congrArg some) (congrArg some)

theorem ascii_fractionText {fraction : Option (List Char)}
    (h : ∀ c ∈ fraction.getD [], c.isDigit = true) : Ascii (fractionText fraction) := by
  cases fraction with
  | none => exact nofun
  | some run => exact List.forall_mem_cons.mpr ⟨by decide, ascii_of_isDigit h⟩

theorem ExponentText.ascii {power : Option Int} (h : ExponentText power text) : Ascii text := by
  cases h with
  | none => exact nofun
  | some hletter hsign hne hrun =>
    refine List.forall_mem_cons.mpr ⟨?_, ascii_append.mpr ⟨hsign.ascii, ascii_of_isDigit hrun⟩⟩
    rcases hletter with rfl | rfl <;> decide

theorem Numeral.Spells.ascii (h : n.Spells head) : Ascii head := by
  cases h with
  | @intro sign exponent hsign hwhole hfraction hne hexponent =>
    exact ascii_append.mpr ⟨hsign.ascii, ascii_append.mpr ⟨ascii_of_isDigit hwhole,
      ascii_append.mpr ⟨ascii_fractionText hfraction, hexponent.ascii⟩⟩⟩

/-- **The search ends where the reader of characters stops,** and finds nothing where this one finds
nothing. -/
theorem numberEnd_encode (text : List Char) :
    (read? text = none ∧ numberEnd (encode text) = .ok none)
      ∨ ∃ n head rest, read? text = some (n, rest) ∧ n.Spells head ∧ text = head ++ rest
        ∧ numberEnd (encode text) = .ok (some (head.length, n.isIntegral)) := by
  -- The four parts are gone through in order. Each is ASCII, so the place behind it is a place
  -- between characters, and the next part can be looked for there.
  rcases hsign : readSign text with ⟨negative, unsigned⟩
  rcases hwhole : readDigits unsigned with ⟨whole, afterWhole⟩
  rcases hfraction : readFraction whole afterWhole with ⟨fraction, afterFraction⟩
  rcases hexponent : readExponent afterFraction with ⟨power, rest⟩
  have hread := LeadingNumber.read?_of_parts hsign hwhole hfraction hexponent
  have hstart : Ascii [] := nofun
  obtain ⟨sign, hsigntext, rfl, hwidth⟩ := signWidth_encode hstart hsign
  have hdigits := digitsFrom_encode hsigntext.ascii unsigned
  obtain ⟨rfl, hwholedigits⟩ := Numeral.eq_of_readDigits hwhole
  have hbefore : Ascii (sign ++ whole) :=
    ascii_append.mpr ⟨hsigntext.ascii, ascii_of_isDigit hwholedigits⟩
  have hpoint := fractionEnd_encode hbefore hfraction
  obtain ⟨rfl, hfractiondigits, hpointed⟩ := LeadingNumber.eq_of_readFraction hfraction
  have hbehind : Ascii (sign ++ whole ++ fractionText fraction) :=
    ascii_append.mpr ⟨hbefore, ascii_fractionText hfractiondigits⟩
  obtain ⟨exponent, hexponenttext, rfl, hpower⟩ := exponentEnd_encode hbehind hexponent
  simp only [List.append_assoc, List.length_append, List.nil_append, List.length_nil, hwhole,
    Nat.add_assoc] at hwidth hdigits hpoint hpower
  -- The counts of digits are zero exactly if no number is found.
  have hempty :
      whole.length = 0 ∧ (fraction.getD []).length = 0 ↔ whole = [] ∧ fraction = none := by
    rw [List.length_eq_zero_iff, List.length_eq_zero_iff]
    refine ⟨fun ⟨hw, hf⟩ => ⟨hw, by_contra fun hne => ?_⟩, fun ⟨hw, hf⟩ => ⟨hw, by rw [hf]; rfl⟩⟩
    exact (hpointed hne).elim (fun h => h hw) (fun h => h hf)
  rw [numberEnd]
  simp only [hwidth, hdigits, hpoint, hpower, bind, Except.bind, pure, Except.pure]
  by_cases hnone : whole = [] ∧ fraction = none
  · exact Or.inl ⟨by rw [hread, if_pos hnone], if_pos (hempty.mpr hnone)⟩
  · have hne : whole ≠ [] ∨ fraction.getD [] ≠ [] := by
      by_cases hfraction : fraction = none
      · exact Or.inl fun hw => hnone ⟨hw, hfraction⟩
      · exact hpointed hfraction
    refine Or.inr ⟨⟨negative, whole, fraction, power⟩, _, rest, by rw [hread, if_neg hnone],
      .intro hsigntext hwholedigits hfractiondigits hne hexponenttext, ?_, ?_⟩
    · simp only [List.append_assoc]
    · rw [if_neg (mt hempty.mp hnone)]
      simp only [List.length_append]
      rfl

/-- A text can be cut behind an ASCII head. -/
theorem cutAt_append (h : Ascii pre) (l : List Char) : cutAt (pre ++ l) pre.length = .ok pre := by
  induction pre with
  | nil => cases l <;> rfl
  | cons c pre ih =>
    obtain ⟨hc, hpre⟩ := List.forall_mem_cons.mp h
    have hsize : c.utf8Size = 1 := by
      rw [← String.length_utf8EncodeChar, encodeChar_of_lt hc, List.length_singleton]
    rw [List.cons_append, List.length_cons, cutAt, hsize, if_neg (Nat.succ_ne_zero _),
      if_pos (Nat.le_add_left 1 _), Nat.add_sub_cancel, ih hpre]
    rfl

/-! ## The number at the head -/

/-- A number that text stands for: an integer, or a float. -/
inductive Number where
  | int (number : Int64)
  | float (number : Binary64)
  deriving DecidableEq, Repr

namespace Number

/-- The number as an integer. -/
def toInt64 : Number → Int64
  | int k => k
  | float x => x.toInt64

/-- The number as a float. -/
def toBinary64 : Number → Binary64
  | int k => .ofInt k.toInt
  | float x => x

end Number

/-- What a numeral stands for. -/
def Numeral.number (n : Numeral) : Number :=
  if n.isIntegral then .int (clampToInt64 n.wholeInt) else .float (.ofDecimal n.negative n.decimal)

theorem Numeral.toInt64_number (n : Numeral) : n.number.toInt64 = n.toInt64 := by
  rw [number, toInt64]
  split <;> rfl

theorem Numeral.toBinary64_number (n : Numeral) : n.number.toBinary64 = n.toBinary64 := by
  rw [number, toBinary64]
  split <;> rfl

/-- What is cut off as a number. An integer that does not fit goes by way of a float. -/
def parseNumber? (integral : Bool) (head : List Char) : Option Number :=
  if integral then
    match parseInteger? head with
    | some k => some (.int k)
    | none => (parseFloat? head).map fun x => .int x.toInt64
  else (parseFloat? head).map .float

/-- A spelling is parsed as its number. -/
theorem parseNumber?_of_spells (h : n.Spells head) :
    parseNumber? n.isIntegral head = some n.number := by
  rw [parseNumber?, Numeral.number, parseFloat?_of_spells h]
  by_cases hintegral : n.isIntegral = true
  · rw [if_pos hintegral, if_pos hintegral, parseInteger?_of_spells h hintegral]
    by_cases hrange : Int64.minValue.toInt ≤ n.wholeInt ∧ n.wholeInt ≤ Int64.maxValue.toInt
    · rw [if_pos hrange, clampToInt64_of_mem_range hrange.1 hrange.2]
    · rw [if_neg hrange]
      exact congrArg (fun k => some (Number.int k))
        (toInt64_ofDecimal_of_isIntegral hintegral hrange)
  · rw [if_neg hintegral, if_neg hintegral]
    rfl

/-- The number at the head of a text, by places. -/
def numberAtHead (text : List Char) : Except BadPlace (Option Number) := do
  match ← numberEnd (encode text) with
  | none => return none
  | some (place, integral) =>
    let head ← cutAt text place
    return parseNumber? integral head

/-- **The search by places finds what the reader of characters finds,** on any text. -/
theorem numberAtHead_eq (text : List Char) :
    numberAtHead text = .ok ((read? text).map fun found => found.1.number) := by
  rw [numberAtHead]
  rcases numberEnd_encode text with ⟨hread, hend⟩ | ⟨n, head, rest, hread, hhead, rfl, hend⟩
  · rw [hend, hread]
    rfl
  · rw [hend, hread]
    show (do let head ← cutAt (head ++ rest) head.length; pure (parseNumber? n.isIntegral head)) = _
    rw [cutAt_append hhead.ascii]
    show Except.ok (parseNumber? n.isIntegral head) = _
    rw [parseNumber?_of_spells hhead]
    rfl

/-- The number that a longest match stands for: an integer, clamped to 64 bits, if neither a point
nor a letter shows, and otherwise the float that the whole match is. -/
inductive Number.Of : List Char → Number → Prop where
  | int {head : List Char} {n : Numeral} (hplain : ∀ c ∈ head, c ∉ ['.', 'e', 'E'])
    (hn : n.Spells head) : Of head (.int (clampToInt64 n.wholeInt))
  | float {head : List Char} {c : Char} {x : Binary64} (hmem : c ∈ head) (hc : c ∈ ['.', 'e', 'E'])
    (hx : parseFloat? head = some x) : Of head (.float x)

/-- A spelling is that of one number. -/
theorem Number.of_iff_of_spells {x : Number} (h : n.Spells head) : x.Of head ↔ x = n.number := by
  have hintegral := h.isIntegral_iff
  constructor
  · rintro (⟨hplain, hm⟩ | ⟨hmem, hc, hx⟩)
    · obtain rfl := LeadingNumber.eq_of_spells h hm
      rw [Numeral.number, if_pos (hintegral.mpr hplain)]
    · rw [parseFloat?_of_spells h] at hx
      rw [Numeral.number, if_neg fun hboth => hintegral.mp hboth _ hmem hc, Option.some.inj hx]
  · rintro rfl
    rw [Numeral.number]
    by_cases hn : n.isIntegral = true
    · rw [if_pos hn]
      exact .int (hintegral.mp hn) h
    · rw [if_neg hn]
      -- What is no integer has a point or an exponent in its text.
      obtain ⟨c, hmem, hc⟩ : ∃ c ∈ head, c ∈ ['.', 'e', 'E'] := by
        by_contra hnone
        refine hn (hintegral.mpr fun c hmem hc => hnone ⟨c, hmem, hc⟩)
      exact .float hmem hc (parseFloat?_of_spells h)

/-- **The number at the head of a text is its longest match.** On any text the search by places
ends without leaving the text or stopping inside a character. It finds no number exactly if the
expression matches no head of the text behind white space, and otherwise the number that the
longest match stands for. Every match is a float as a whole, so none is refused. And what is found
is what the integer marker and the float marker go by. -/
theorem numberAtHead_spec (s : String) :
    ∃ found, numberAtHead (dropWhiteSpace s.toList) = .ok found
      ∧ (found = none
        ↔ ∀ head, head <+: dropWhiteSpace s.toList → head ∉ Grammar.number.matches')
      ∧ (∀ x, found = some x
        ↔ ∃ head, LongestMatch Grammar.number (dropWhiteSpace s.toList) head ∧ x.Of head)
      ∧ (∀ head, head ∈ Grammar.number.matches' → ∃ x, parseFloat? head = some x)
      ∧ (Value.text s).toInt64? = some (found.elim 0 Number.toInt64)
      ∧ (Value.text s).toBinary64? = some (found.elim (.ofInt 0) Number.toBinary64) := by
  refine ⟨(LeadingNumber.ofText? s).map Numeral.number, ?_, ?_, fun x => ?_, fun head hhead => ?_,
    ?_, ?_⟩
  · rw [numberAtHead_eq, LeadingNumber.ofText?, Option.map_map]
    rfl
  · rw [Option.map_eq_none_iff, LeadingNumber.ofText?_eq_none_iff, LeadingNumber.absent_iff]
  · rw [Option.map_eq_some_iff]
    constructor
    -- A numeral leads a text exactly if a longest match spells it.
    · rintro ⟨n, hn, rfl⟩
      obtain ⟨head, hlongest, hhead⟩ :=
        Numeral.leads_iff.mp (LeadingNumber.ofText?_eq_some_iff.mp hn)
      exact ⟨head, hlongest, (Number.of_iff_of_spells hhead).mpr rfl⟩
    · rintro ⟨head, hlongest, hx⟩
      obtain ⟨n, hhead⟩ := Grammar.mem_number.mp hlongest.mem
      have hn := Numeral.leads_iff.mpr ⟨head, hlongest, hhead⟩
      exact ⟨n, LeadingNumber.ofText?_eq_some_iff.mpr hn,
        ((Number.of_iff_of_spells hhead).mp hx).symm⟩
  · obtain ⟨n, hn⟩ := Grammar.mem_number.mp hhead
    exact ⟨_, parseFloat?_of_spells hn⟩
  · rw [Value.toInt64?]
    cases LeadingNumber.ofText? s with
    | none => rfl
    | some n => exact congrArg some n.toInt64_number.symm
  · rw [Value.toBinary64?]
    cases LeadingNumber.ofText? s with
    | none => rfl
    | some n => exact congrArg some n.toBinary64_number.symm

/-- A letter and a sign that no exponent follows stay behind, as does a character of two bytes. -/
example : numberAtHead "-1.5e+\u00e4".toList
    = .ok (some (.float (.ofDecimal true ⟨15, -1⟩))) := by
  decide +kernel

end SqlTemplate
