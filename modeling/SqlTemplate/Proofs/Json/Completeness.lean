import SqlTemplate.Proofs.Json.Grammar
import SqlTemplate.Proofs.Json.Integers
import SqlTemplate.Proofs.Json.Nesting

/-!
That the reader takes every JSON text.

A tree that is read is written in the text, by `isText_of_parse?`. Here is the other direction:
where a tree may begin, the reader goes through any spelling of it and puts the tree into the
innermost container, unless the tree nests deeper than the limit leaves room for (`Accepts`). There
is one lemma for each way of spelling, and the four kinds of spelling are put together by one
induction (`accepts_of_spells`). A number is the only lexical unit that does not say itself where it
ends, so what comes behind a spelling must not go on with a number (`StopsNumber`). Main statement:
`parse?_eq_some_iff`.
-/

set_option autoImplicit false

namespace SqlTemplate.Json

variable {c : Char} {text rest b content body char digits escape : List Char} {code count : Nat}
  {frames : List Frame} {expected : Expected} {tree : Json} {s s' : State}

/-! ## Reading on to the end -/

/-- The tree that a text ends with when it is read on from a state. -/
def accept (s : State) (text : List Char) : Option Json := (run s text).bind finish

/-- A text in front is run, and the rest is read on from there. -/
theorem accept_append (s : State) (text rest : List Char) :
    accept s (text ++ rest) = (run s text).bind (accept · rest) := by
  rw [accept, run_append, Option.bind_assoc]
  rfl

theorem accept_cons (s : State) (c : Char) (rest : List Char) :
    accept s (c :: rest) = (step s c).bind (accept · rest) := by
  rw [accept, run_cons, Option.bind_assoc]
  rfl

theorem accept_of_run (h : run s text = some s') (rest : List Char) :
    accept s (text ++ rest) = accept s' rest := by
  rw [accept_append, h, Option.bind_some]

theorem accept_of_step (h : step s c = some s') (rest : List Char) :
    accept s (c :: rest) = accept s' rest := by
  rw [accept_cons, h, Option.bind_some]

/-- Blanks between lexical units change nothing. -/
theorem accept_blank (hb : Blank b) (frames : List Frame) (expected : Expected)
    (rest : List Char) :
    accept ⟨frames, .between expected⟩ (b ++ rest) = accept ⟨frames, .between expected⟩ rest := by
  induction b with
  | nil => rfl
  | cons c b ih =>
    have hstep : step ⟨frames, .between expected⟩ c = some ⟨frames, .between expected⟩ :=
      if_pos (hb c List.mem_cons_self)
    rw [List.cons_append, accept_of_step hstep]
    exact ih fun d hd => hb d (List.mem_cons_of_mem c hd)

/-- The first character of a value is read as such wherever a tree may begin. -/
theorem step_value (hexpected : expected.takesValue = true) (hblank : isBlank c = false)
    (hc : c ≠ ']') : step ⟨frames, .between expected⟩ c = beginValue c frames := by
  have hno : ¬ isBlank c = true := Bool.eq_false_iff.mp hblank
  cases expected with
  | value => exact if_neg hno
  | firstItem => exact (if_neg hno).trans (if_neg hc)
  | _ => exact absurd hexpected (by simp [Expected.takesValue])

/-- A quote begins a string wherever a tree or a name may begin. -/
theorem step_quote (hexpected : expected.takesValue = true ∨ expected.takesName = true) :
    step ⟨frames, .between expected⟩ '\"' = some ⟨frames, .string [] .plain⟩ := by
  cases expected with
  | value | firstItem | firstName | name => rfl
  | _ => exact absurd hexpected (by simp [Expected.takesValue, Expected.takesName])

/-! ## Words -/

/-- A word is read to its end. -/
theorem accept_word (hne : text ≠ []) (frames : List Frame) (tree : Json) (rest : List Char) :
    accept ⟨frames, .word text tree⟩ (text ++ rest)
      = (complete tree frames).bind (accept · rest) := by
  induction text with
  | nil => exact absurd rfl hne
  | cons c text ih =>
    cases text with
    | nil =>
      have hstep : step ⟨frames, .word [c] tree⟩ c = complete tree frames := if_pos rfl
      rw [List.singleton_append, accept_cons, hstep]
    | cons d text =>
      have hstep : step ⟨frames, .word (c :: d :: text) tree⟩ c
          = some ⟨frames, .word (d :: text) tree⟩ := if_pos rfl
      rw [List.cons_append, accept_of_step hstep]
      exact ih (List.cons_ne_nil d text)

/-! ## Strings -/

/-- Up to three digits of an escape are collected. -/
theorem run_hexText (h : HexText code count digits) (hcount : count < 4) (frames : List Frame)
    (content : List Char) (first : Option Nat) :
    run ⟨frames, .string content (.hex first 0 0)⟩ digits
      = some ⟨frames, .string content (.hex first code count)⟩ := by
  induction h with
  | nil => rfl
  | @snoc code digit count digits c h hc ih =>
    rw [run_append, ih (Nat.lt_of_succ_lt hcount), Option.bind_some, run_cons, step]
    dsimp only
    rw [stepString, hc]
    dsimp only
    rw [if_pos (Nat.lt_of_succ_lt_succ hcount)]
    rfl

/-- The fourth digit completes the escape. -/
theorem run_fourDigits (h : HexText code 4 digits) (frames : List Frame) (content : List Char)
    (first : Option Nat) :
    run ⟨frames, .string content (.hex first 0 0)⟩ digits
      = (completeHex content first code).map (State.mk frames) := by
  cases h with
  | @snoc code digit count digits c h hc =>
    rw [run_append, run_hexText h (by decide), Option.bind_some, run_cons, step]
    dsimp only
    rw [stepString, hc]
    dsimp only
    rw [if_neg (by decide)]
    cases completeHex content first (16 * code + digit) <;> rfl

/-- A four-digit escape is completed by its last digit. -/
theorem run_codeText (h : CodeText code escape) (frames : List Frame) (content : List Char) :
    run ⟨frames, .string content .plain⟩ escape
      = (completeHex content none code).map (State.mk frames) := by
  cases h with
  | intro h => exact run_fourDigits h frames content none

theorem run_secondCodeText (h : CodeText code escape) (frames : List Frame) (content : List Char)
    (first : Nat) :
    run ⟨frames, .string content (.partner first)⟩ escape
      = (completeHex content (some first) code).map (State.mk frames) := by
  cases h with
  | intro h => exact run_fourDigits h frames content (some first)

/-- Whichever way a character is written, it is what the string has next. -/
theorem run_charText (h : CharText c char) (frames : List Frame) (content : List Char) :
    run ⟨frames, .string content .plain⟩ char
      = some ⟨frames, .string (c :: content) .plain⟩ := by
  cases h with
  | plain hquote hescape hcontrol =>
    have hstep : stepString content .plain c = some (.string (c :: content) .plain) :=
      (if_neg hescape).trans (if_neg (Nat.not_lt.mpr hcontrol))
    rw [run_cons, step]
    dsimp only
    rw [if_neg hquote, hstep]
    rfl
  | @letter c d h =>
    have hu : d ≠ 'u' := by
      rintro rfl
      have hnone : escapedChar? 'u' = none := by decide
      exact absurd (hnone.symm.trans h) (by simp)
    have hstep : stepString content .escape d = some (.string (c :: content) .plain) := by
      rw [stepString, if_neg hu, h]
      rfl
    have hescape : step ⟨frames, .string content .plain⟩ '\\'
        = some ⟨frames, .string content .escape⟩ := rfl
    rw [run_cons, hescape, Option.bind_some, run_cons, step]
    dsimp only
    rw [hstep]
    rfl
  | @code code escape h hfirst hsecond =>
    rw [run_codeText h, completeHex, hfirst, hsecond]
    rfl
  | @pair first second escape escape' h h' hfirst hsecond =>
    have hpartner : run ⟨frames, .string content .plain⟩ escape
        = some ⟨frames, .string content (.partner first)⟩ := by
      rw [run_codeText h, completeHex, hfirst]
      rfl
    rw [run_append, hpartner, Option.bind_some, run_secondCodeText h', completeHex, hsecond]
    rfl

/-- The characters of a string are collected one by one. -/
theorem run_stringText (h : StringText content body) (frames : List Frame) :
    run ⟨frames, .string [] .plain⟩ body = some ⟨frames, .string content.reverse .plain⟩ := by
  induction h with
  | nil => rfl
  | snoc h hc ih =>
    rw [run_append, ih, Option.bind_some, run_charText hc, List.reverse_append]
    rfl

/-- A string is read up to the quote that ends it. -/
theorem accept_string (hexpected : expected.takesValue = true ∨ expected.takesName = true)
    (h : StringText content body) (frames : List Frame) (rest : List Char) :
    accept ⟨frames, .between expected⟩ ('\"' :: (body ++ '\"' :: rest))
      = (completeString content.reverse frames).bind (accept · rest) := by
  rw [accept_of_step (step_quote hexpected), accept_of_run (run_stringText h frames), accept_cons]
  rfl

/-! ## Numbers -/

/-- What does not go on with a number that stands in front of it. -/
def StopsNumber (rest : List Char) : Prop := ∀ c, rest.head? = some c → isNumberChar c = false

theorem stopsNumber_cons (rest : List Char) (hc : isNumberChar c = false) :
    StopsNumber (c :: rest) := by
  intro d hd
  obtain rfl := Option.some.inj hd
  exact hc

/-- White space does not stand in numbers. -/
theorem isNumberChar_of_isBlank (h : isBlank c = true) : isNumberChar c = false := by
  simp only [isBlank, Bool.or_eq_true, beq_iff_eq] at h
  rcases h with ((rfl | rfl) | rfl) | rfl <;> decide

/-- Blanks in front of what stops a number stop it too. -/
theorem Blank.stopsNumber (hb : Blank b) (h : StopsNumber rest) : StopsNumber (b ++ rest) := by
  cases b with
  | nil => exact h
  | cons c b => exact stopsNumber_cons _ (isNumberChar_of_isBlank (hb c List.mem_cons_self))

/-- At the end of a text a number is complete. -/
theorem finish_eq_bind (content : List Char) (frames : List Frame) :
    finish ⟨frames, .number content⟩ = (completeNumber content frames).bind finish := by
  rw [finish]
  dsimp only
  cases hs : completeNumber content frames with
  | none => rfl
  | some s =>
    obtain ⟨numeral, -, hcomplete⟩ := Option.bind_eq_some_iff.mp hs
    obtain ⟨fs, expected, rfl⟩ := exists_between_of_complete hcomplete
    cases expected <;> rfl

/-- A number is complete where something stops it. -/
theorem accept_of_stopsNumber (hrest : StopsNumber rest) (frames : List Frame)
    (content : List Char) :
    accept ⟨frames, .number content⟩ rest
      = (completeNumber content frames).bind (accept · rest) := by
  cases rest with
  | nil => exact finish_eq_bind content frames
  | cons c rest =>
    rw [accept_cons, step_number (hrest c rfl), Option.bind_assoc]
    exact congrArg _ (funext fun s => (accept_cons s c rest).symm)

/-- A power of ten holds only characters of numbers. -/
theorem isNumberChar_of_mem_exponent {power : Option Int} (h : ExponentText power text) :
    ∀ c ∈ text, isNumberChar c = true := by
  cases h with
  | none => exact nofun
  | some hletter hsign hne hdigits =>
    intro c hc
    rcases List.mem_cons.mp hc with rfl | hc
    · rcases hletter with rfl | rfl <;> decide
    rcases List.mem_append.mp hc with hc | hc
    · cases hsign with
      | none => exact absurd hc List.not_mem_nil
      | plus | minus =>
        obtain rfl := List.mem_singleton.mp hc
        decide
    · exact isNumberChar_of_isDigit (hdigits c hc)

/-- So does the fraction part. -/
theorem isNumberChar_of_mem_fraction {fraction : Option (List Char)}
    (h : ∀ c ∈ fraction.getD [], c.isDigit = true) :
    ∀ c ∈ Numeral.fractionText fraction, isNumberChar c = true := by
  cases fraction with
  | none => exact nofun
  | some digits =>
    intro c hc
    rcases List.mem_cons.mp hc with rfl | hc
    · decide
    · exact isNumberChar_of_isDigit (h c hc)

/-- A number starts with a minus sign or a digit, and the characters behind go on with it. -/
theorem NumberText.exists_cons {n : Numeral} (h : NumberText n text) :
    ∃ c tail, text = c :: tail ∧ (c = '-' ∨ c.isDigit = true)
      ∧ ∀ d ∈ tail, isNumberChar d = true := by
  cases h with
  | @intro exponent hne hzero hwhole hpoint hfraction hexponent =>
  have hunsigned : ∀ d ∈ n.whole ++ (Numeral.fractionText n.fraction ++ exponent),
      isNumberChar d = true := by
    intro d hd
    rcases List.mem_append.mp hd with hd | hd
    · exact isNumberChar_of_isDigit (hwhole d hd)
    rcases List.mem_append.mp hd with hd | hd
    · exact isNumberChar_of_mem_fraction hfraction d hd
    · exact isNumberChar_of_mem_exponent hexponent d hd
  by_cases hnegative : n.negative = true
  · rw [if_pos hnegative]
    exact ⟨'-', _, rfl, Or.inl rfl, hunsigned⟩
  · rw [if_neg hnegative]
    obtain ⟨c, tail, hcons⟩ := List.exists_cons_of_ne_nil hne
    rw [hcons] at hunsigned hwhole ⊢
    exact ⟨c, _, rfl, Or.inr (hwhole c List.mem_cons_self),
      fun d hd => hunsigned d (List.mem_cons_of_mem c hd)⟩

/-- A point with its digits, or nothing, is read in front of what is neither. -/
theorem readFraction?_append {fraction : Option (List Char)} (hpoint : fraction ≠ some [])
    (hfraction : ∀ c ∈ fraction.getD [], c.isDigit = true)
    (hrest : ∀ c, rest.head? = some c → c.isDigit = false ∧ c ≠ '.') :
    readFraction? (Numeral.fractionText fraction ++ rest) = some (fraction, rest) := by
  cases fraction with
  | none =>
    cases rest with
    | nil => rfl
    | cons c rest => exact if_neg (hrest c rfl).2
  | some digits =>
    have hread := Numeral.readDigits_append hfraction fun c hc => (hrest c hc).1
    rw [Option.getD_some] at hread
    have hne : digits ≠ [] := fun hnil => hpoint (congrArg some hnil)
    rw [Numeral.fractionText, List.cons_append, readFraction?, if_pos rfl]
    simp only [hread]
    exact if_neg hne

/-- The sign of a number is read by itself. -/
theorem signed_eq {n : Numeral} (hne : n.whole ≠ []) (hwhole : ∀ c ∈ n.whole, c.isDigit = true)
    (rest : List Char) :
    (if ((if n.negative then ['-'] else []) ++ (n.whole ++ rest)).head? = some '-'
      then (true, ((if n.negative then ['-'] else []) ++ (n.whole ++ rest)).tail)
      else (false, (if n.negative then ['-'] else []) ++ (n.whole ++ rest)))
      = (n.negative, n.whole ++ rest) := by
  cases hnegative : n.negative with
  | true => rfl
  | false =>
    refine if_neg fun hminus => ?_
    have hdigit := LeadingNumber.isDigit_of_head? hne hwhole '-' hminus
    exact absurd hdigit (by decide)

/-- A number by the grammar is read as the numeral that it spells. -/
theorem readNumber?_of_numberText {n : Numeral} (h : NumberText n text) :
    readNumber? text = some n := by
  cases h with
  | @intro exponent hne hzero hwhole hpoint hfraction hexponent =>
  have hdigits := Numeral.readDigits_append hwhole
    (LeadingNumber.head_fraction n.fraction hexponent)
  have hfractionText := readFraction?_append hpoint hfraction
    (LeadingNumber.head_exponent hexponent)
  obtain ⟨power, rest, hread, hsuffix, hpower⟩ := LeadingNumber.exists_readExponent hexponent []
  obtain rfl := List.suffix_nil.mp hsuffix
  rw [List.append_nil, hpower rfl] at hread
  have hgood : ¬ (n.whole = [] ∨ (n.whole.head? = some '0' ∧ n.whole ≠ ['0'])) :=
    not_or.mpr ⟨hne, fun hbad => hbad.2 (hzero hbad.1)⟩
  rw [readNumber?, signed_eq hne hwhole]
  simp only [hdigits, if_neg hgood, hfractionText, hread]
  rfl

/-- A minus sign or a digit begins a number wherever a tree may begin. -/
theorem step_numberHead (hexpected : expected.takesValue = true)
    (h : c = '-' ∨ c.isDigit = true) (frames : List Frame) :
    step ⟨frames, .between expected⟩ c = some ⟨frames, .number [c]⟩ := by
  have hne (d : Char) (hd : ¬ (d = '-' ∨ d.isDigit = true)) : c ≠ d := fun hcd => hd (hcd ▸ h)
  have hblank : isBlank c = false := by
    rw [Bool.eq_false_iff]
    intro hblank
    have hnumber : isNumberChar c = true := by
      rcases h with rfl | hdigit
      · decide
      · exact isNumberChar_of_isDigit hdigit
    rw [isNumberChar_of_isBlank hblank] at hnumber
    exact Bool.false_ne_true hnumber
  rw [step_value hexpected hblank (hne ']' (by decide)), beginValue,
    if_neg (hne '[' (by decide)), if_neg (hne '\x7b' (by decide)), if_neg (hne '\"' (by decide)),
    if_neg (hne 't' (by decide)), if_neg (hne 'f' (by decide)), if_neg (hne 'n' (by decide)),
    if_pos h]

/-- A number is read up to what stops it. -/
theorem accept_number {n : Numeral} (hexpected : expected.takesValue = true)
    (h : NumberText n text) (hrest : StopsNumber rest) (frames : List Frame) :
    accept ⟨frames, .between expected⟩ (text ++ rest)
      = (complete (.number n) frames).bind (accept · rest) := by
  obtain ⟨c, tail, rfl, hc, htail⟩ := h.exists_cons
  have hread : readNumber? (tail.reverse ++ [c]).reverse = some n := by
    rw [List.reverse_append, List.reverse_reverse]
    exact readNumber?_of_numberText h
  rw [List.cons_append, accept_of_step (step_numberHead hexpected hc frames),
    accept_of_run (run_number frames [c] htail), accept_of_stopsNumber hrest, completeNumber, hread,
    Option.bind_some]

/-! ## Trees -/

/-- Whether a tree may be put into the open containers: not where a name is due. -/
def takesTree : List Frame → Bool
  | .object _ :: _ => false
  | _ => true

/-- Where a tree may begin, this text is read as this tree, if the limit leaves room for it. -/
def Accepts (tree : Json) (text : List Char) : Prop :=
  ∀ (frames : List Frame) (expected : Expected) (rest : List Char),
    frames.length < nestingLimit → takesTree frames = true → expected.takesValue = true →
      StopsNumber rest →
        accept ⟨frames, .between expected⟩ (text ++ rest)
          = if frames.length + tree.nesting < nestingLimit
            then (complete tree frames).bind (accept · rest) else none

/-- Behind an opening bracket, this text is read as these items. -/
def AcceptsItems (items : List Json) (text : List Char) : Prop :=
  ∀ (frames : List Frame) (rest : List Char), frames.length + 1 < nestingLimit →
    StopsNumber rest →
      accept ⟨.array [] :: frames, .between .firstItem⟩ (text ++ rest)
        = if frames.length + 1 + itemsNesting items < nestingLimit
          then accept ⟨.array items.reverse :: frames, .between .separator⟩ rest else none

/-- Where a name may begin, this text is read as this member. -/
def AcceptsMember (member : String × Json) (text : List Char) : Prop :=
  ∀ (frames : List Frame) (members : List (String × Json)) (expected : Expected)
    (rest : List Char), frames.length + 1 < nestingLimit → expected.takesName = true →
      StopsNumber rest →
        accept ⟨.object members :: frames, .between expected⟩ (text ++ rest)
          = if frames.length + 1 + member.2.nesting < nestingLimit
            then accept ⟨.object (member :: members) :: frames, .between .separator⟩ rest
            else none

/-- Behind an opening brace, this text is read as these members. -/
def AcceptsMembers (members : List (String × Json)) (text : List Char) : Prop :=
  ∀ (frames : List Frame) (rest : List Char), frames.length + 1 < nestingLimit →
    StopsNumber rest →
      accept ⟨.object [] :: frames, .between .firstName⟩ (text ++ rest)
        = if frames.length + 1 + membersNesting members < nestingLimit
          then accept ⟨.object members.reverse :: frames, .between .separator⟩ rest else none

/-! ### Leaves -/

/-- A word is read from its first character on. -/
theorem accepts_word {c : Char} (hne : text ≠ [])
    (hbegin : ∀ frames, beginValue c frames = some ⟨frames, .word text tree⟩)
    (hblank : isBlank c = false) (hc : c ≠ ']') (hnesting : tree.nesting = 0) :
    Accepts tree (c :: text) := by
  intro frames expected rest hroom hframes hexpected hrest
  have hstep := (step_value hexpected hblank hc).trans (hbegin frames)
  rw [hnesting, Nat.add_zero, if_pos hroom, List.cons_append, accept_of_step hstep,
    accept_word hne]

theorem accepts_number {n : Numeral} (h : NumberText n text) : Accepts (.number n) text := by
  intro frames expected rest hroom hframes hexpected hrest
  rw [nesting, Nat.add_zero, if_pos hroom, accept_number hexpected h hrest]

/-- Where no name is due, a string is a tree. -/
theorem completeString_of_takesTree (hframes : takesTree frames = true) (content : List Char) :
    completeString content frames = complete (.string (String.ofList content.reverse)) frames := by
  cases frames with
  | nil => rfl
  | cons frame frames =>
    cases frame with
    | object => exact absurd hframes (by simp [takesTree])
    | array | member => rfl

theorem accepts_string (h : StringText content body) :
    Accepts (.string (String.ofList content)) ('\"' :: (body ++ ['\"'])) := by
  intro frames expected rest hroom hframes hexpected hrest
  rw [nesting, Nat.add_zero, if_pos hroom, List.cons_append, List.append_assoc,
    List.singleton_append, accept_string (Or.inl hexpected) h,
    completeString_of_takesTree hframes, List.reverse_reverse]

/-! ### Containers -/

/-- A container opens if the limit leaves room for it. -/
theorem accept_open {frame : Frame} (h : step s c = openFrame frame frames expected)
    (rest : List Char) :
    accept s (c :: rest)
      = if frames.length + 1 < nestingLimit
        then accept ⟨frame :: frames, .between expected⟩ rest else none := by
  rw [accept_cons, h, openFrame]
  split
  · rfl
  · rfl

/-- A bracket or a brace behind blanks closes its container. -/
theorem accept_close (hb : Blank b)
    (hstep : step ⟨frames, .between expected⟩ c = closeFrame c frames) (rest : List Char) :
    accept ⟨frames, .between expected⟩ (b ++ c :: rest)
      = (closeFrame c frames).bind (accept · rest) := by
  rw [accept_blank hb, accept_cons, hstep]

/-- A bracket opens an array wherever a tree may begin. -/
theorem step_openArray (hexpected : expected.takesValue = true) (frames : List Frame) :
    step ⟨frames, .between expected⟩ '[' = openFrame (.array []) frames .firstItem :=
  (step_value hexpected rfl (by decide)).trans rfl

/-- A brace opens an object there. -/
theorem step_openObject (hexpected : expected.takesValue = true) (frames : List Frame) :
    step ⟨frames, .between expected⟩ '\x7b' = openFrame (.object []) frames .firstName :=
  (step_value hexpected rfl (by decide)).trans rfl

theorem accepts_emptyArray (hb : Blank b) : Accepts (.array []) ('[' :: (b ++ [']'])) := by
  intro frames expected rest hroom hframes hexpected hrest
  rw [List.cons_append, List.append_assoc, List.singleton_append,
    accept_open (step_openArray hexpected frames), accept_close hb rfl]
  rfl

/-- **A container is read from its opening sign to its closing one.** Between the two stands what
makes its frame grow from `frame` to `grown`. -/
theorem accept_container {frame grown : Frame} {depth : Nat} {close : Char}
    (hopen : step s c = openFrame frame frames expected)
    (hcontent : ∀ rest, frames.length + 1 < nestingLimit → StopsNumber rest →
      accept ⟨frame :: frames, .between expected⟩ (text ++ rest)
        = if frames.length + 1 + depth < nestingLimit
          then accept ⟨grown :: frames, .between .separator⟩ rest else none)
    (hb : Blank b) (hnumber : isNumberChar close = false)
    (hclose : ∀ rest, accept ⟨grown :: frames, .between .separator⟩ (b ++ close :: rest)
      = (complete tree frames).bind (accept · rest)) (rest : List Char) :
    accept s (c :: (text ++ (b ++ close :: rest)))
      = if frames.length + (1 + depth) < nestingLimit
        then (complete tree frames).bind (accept · rest) else none := by
  rw [accept_open hopen, ← Nat.add_assoc]
  by_cases hroom : frames.length + 1 < nestingLimit
  · rw [if_pos hroom, hcontent _ hroom (hb.stopsNumber (stopsNumber_cons rest hnumber)), hclose]
  -- The container itself is too deep, and so is what stands in it.
  · rw [if_neg hroom, if_neg (by omega)]

/-- Items between brackets are read as an array. -/
theorem accepts_array {items : List Json} (h : AcceptsItems items text) (hb : Blank b) :
    Accepts (.array items) ('[' :: (text ++ (b ++ [']']))) := by
  intro frames expected rest hroom hframes hexpected hrest
  have hclose : ∀ rest,
      accept ⟨.array items.reverse :: frames, .between .separator⟩ (b ++ ']' :: rest)
        = (complete (.array items) frames).bind (accept · rest) := by
    intro rest
    rw [accept_close hb rfl, closeFrame, if_pos rfl, List.reverse_reverse]
  rw [List.cons_append, List.append_assoc, List.append_assoc, List.singleton_append,
    accept_container (step_openArray hexpected frames) (h frames) hb (by decide) hclose, nesting,
    Nat.add_comm 1]

theorem accepts_emptyObject (hb : Blank b) :
    Accepts (.object []) ('\x7b' :: (b ++ ['\x7d'])) := by
  intro frames expected rest hroom hframes hexpected hrest
  rw [List.cons_append, List.append_assoc, List.singleton_append,
    accept_open (step_openObject hexpected frames), accept_close hb rfl]
  rfl

/-- Members between braces are read as an object. -/
theorem accepts_object {members : List (String × Json)} (h : AcceptsMembers members text)
    (hb : Blank b) : Accepts (.object members) ('\x7b' :: (text ++ (b ++ ['\x7d']))) := by
  intro frames expected rest hroom hframes hexpected hrest
  have hclose : ∀ rest,
      accept ⟨.object members.reverse :: frames, .between .separator⟩ (b ++ '\x7d' :: rest)
        = (complete (.object members) frames).bind (accept · rest) := by
    intro rest
    rw [accept_close hb rfl, closeFrame, if_pos rfl, List.reverse_reverse]
  rw [List.cons_append, List.append_assoc, List.append_assoc, List.singleton_append,
    accept_container (step_openObject hexpected frames) (h frames) hb (by decide) hclose, nesting,
    Nat.add_comm 1]

/-! ### Items and members -/

/-- Two limits that are kept one after the other are kept together. -/
theorem ite_and_max {α : Type} (base m n : Nat) (x : Option α) :
    (if base + m < nestingLimit then if base + n < nestingLimit then x else none else none)
      = if base + max m n < nestingLimit then x else none := by
  have hmax : base + max m n < nestingLimit
      ↔ base + m < nestingLimit ∧ base + n < nestingLimit := by omega
  simp only [hmax, ite_and]

/-- In an array a tree becomes its next item. -/
theorem Accepts.item (h : Accepts tree text) (hroom : frames.length + 1 < nestingLimit)
    (hexpected : expected.takesValue = true) (hrest : StopsNumber rest) (items : List Json) :
    accept ⟨.array items :: frames, .between expected⟩ (text ++ rest)
      = if frames.length + 1 + tree.nesting < nestingLimit
        then accept ⟨.array (tree :: items) :: frames, .between .separator⟩ rest else none :=
  h (.array items :: frames) expected rest hroom rfl hexpected hrest

/-- Behind a name and a colon a tree makes the next member of the object. -/
theorem Accepts.member (h : Accepts tree text) (hroom : frames.length + 1 < nestingLimit)
    (hrest : StopsNumber rest) (members : List (String × Json)) (name : String) :
    accept ⟨.member members name :: frames, .between .value⟩ (text ++ rest)
      = if frames.length + 1 + tree.nesting < nestingLimit
        then accept ⟨.object ((name, tree) :: members) :: frames, .between .separator⟩ rest
        else none :=
  h (.member members name :: frames) .value rest hroom rfl rfl hrest

theorem acceptsItems_first (hb : Blank b) (h : Accepts tree text) :
    AcceptsItems [tree] (b ++ text) := by
  intro frames rest hroom hrest
  rw [List.append_assoc, accept_blank hb, h.item hroom rfl hrest, itemsNesting, itemsNesting,
    Nat.max_zero, List.reverse_singleton]

/-- A further item stands behind a comma. -/
theorem acceptsItems_next {items : List Json} {texts b' : List Char}
    (hitems : AcceptsItems items texts) (hb : Blank b) (hb' : Blank b') (h : Accepts tree text) :
    AcceptsItems (items ++ [tree]) (texts ++ (b ++ ',' :: (b' ++ text))) := by
  intro frames rest hroom hrest
  have hcomma : step ⟨.array items.reverse :: frames, .between .separator⟩ ','
      = some ⟨.array items.reverse :: frames, .between .value⟩ := rfl
  rw [List.append_assoc, List.append_assoc, List.cons_append, List.append_assoc,
    hitems frames _ hroom (hb.stopsNumber (stopsNumber_cons _ (by decide))), accept_blank hb,
    accept_of_step hcomma, accept_blank hb', h.item hroom rfl hrest, ite_and_max,
    itemsNesting_append, itemsNesting, itemsNesting, Nat.max_zero, List.reverse_append]
  rfl

/-- A member is read as its name and its tree. -/
theorem acceptsMember {b' : List Char} (hname : StringText content body) (hb : Blank b)
    (hb' : Blank b') (h : Accepts tree text) :
    AcceptsMember (String.ofList content, tree)
      ('\"' :: (body ++ '\"' :: (b ++ ':' :: (b' ++ text)))) := by
  intro frames members expected rest hroom hexpected hrest
  have hstring : completeString content.reverse (.object members :: frames)
      = some ⟨.member members (String.ofList content) :: frames, .between .colon⟩ := by
    rw [completeString, List.reverse_reverse]
  have hcolon : step ⟨.member members (String.ofList content) :: frames, .between .colon⟩ ':'
      = some ⟨.member members (String.ofList content) :: frames, .between .value⟩ := rfl
  rw [List.cons_append, List.append_assoc, List.cons_append, List.append_assoc, List.cons_append,
    List.append_assoc, accept_string (Or.inr hexpected) hname, hstring, Option.bind_some,
    accept_blank hb, accept_of_step hcolon, accept_blank hb', h.member hroom hrest]

theorem acceptsMembers_first {member : String × Json} (hb : Blank b)
    (h : AcceptsMember member text) : AcceptsMembers [member] (b ++ text) := by
  intro frames rest hroom hrest
  rw [List.append_assoc, accept_blank hb, h frames [] .firstName rest hroom rfl hrest,
    membersNesting, membersNesting, Nat.max_zero, List.reverse_singleton]

/-- A further member stands behind a comma. -/
theorem acceptsMembers_next {members : List (String × Json)} {member : String × Json}
    {texts b' : List Char} (hmembers : AcceptsMembers members texts) (hb : Blank b)
    (hb' : Blank b') (h : AcceptsMember member text) :
    AcceptsMembers (members ++ [member]) (texts ++ (b ++ ',' :: (b' ++ text))) := by
  intro frames rest hroom hrest
  have hcomma : step ⟨.object members.reverse :: frames, .between .separator⟩ ','
      = some ⟨.object members.reverse :: frames, .between .name⟩ := rfl
  rw [List.append_assoc, List.append_assoc, List.cons_append, List.append_assoc,
    hmembers frames _ hroom (hb.stopsNumber (stopsNumber_cons _ (by decide))), accept_blank hb,
    accept_of_step hcomma, accept_blank hb', h frames _ .name rest hroom rfl hrest, ite_and_max,
    membersNesting_append, membersNesting, membersNesting, Nat.max_zero, List.reverse_append]
  rfl

mutual

/-- **Every spelling is read as the tree that it spells.** -/
theorem accepts_of_spells {tree : Json} {text : List Char} : Spells tree text → Accepts tree text
  | .null => accepts_word (by decide) (fun _ => rfl) rfl (by decide) rfl
  | .true => accepts_word (by decide) (fun _ => rfl) rfl (by decide) rfl
  | .false => accepts_word (by decide) (fun _ => rfl) rfl (by decide) rfl
  | .number h => accepts_number h
  | .string h => accepts_string h
  | .emptyArray hb => accepts_emptyArray hb
  | .array h hb => accepts_array (accepts_of_itemsText h) hb
  | .emptyObject hb => accepts_emptyObject hb
  | .object h hb => accepts_object (accepts_of_membersText h) hb

theorem accepts_of_itemsText {items : List Json} {text : List Char} :
    ItemsText items text → AcceptsItems items text
  | .first hb h => acceptsItems_first hb (accepts_of_spells h)
  | .next hitems hb hb' h =>
    acceptsItems_next (accepts_of_itemsText hitems) hb hb' (accepts_of_spells h)

theorem accepts_of_memberText {member : String × Json} {text : List Char} :
    MemberText member text → AcceptsMember member text
  | .intro hname hb hb' h => acceptsMember hname hb hb' (accepts_of_spells h)

theorem accepts_of_membersText {members : List (String × Json)} {text : List Char} :
    MembersText members text → AcceptsMembers members text
  | .first hb h => acceptsMembers_first hb (accepts_of_memberText h)
  | .next hmembers hb hb' h =>
    acceptsMembers_next (accepts_of_membersText hmembers) hb hb' (accepts_of_memberText h)

end

/-! ## Texts -/

/-- **A JSON text is read as its tree, or refused for its nesting.** -/
theorem parse?_of_isText {text : String} (h : IsText tree text.toList) :
    parse? text = if tree.nesting < nestingLimit then some tree else none := by
  generalize htext : text.toList = characters at h
  cases h with
  | @intro b spelling b' hb h hb' =>
    have hstart : accept .initial (b ++ (spelling ++ b'))
        = if 0 + tree.nesting < nestingLimit
          then accept ⟨[], .between (.nothing tree)⟩ b' else none := by
      rw [State.initial, accept_blank hb]
      have hrest : StopsNumber (b' ++ []) := hb'.stopsNumber nofun
      rw [List.append_nil] at hrest
      exact accepts_of_spells h [] .value b' (by decide) rfl rfl hrest
    have hend : accept ⟨[], .between (.nothing tree)⟩ b' = some tree := by
      have hblank := accept_blank hb' [] (.nothing tree) []
      rwa [List.append_nil] at hblank
    rw [Nat.zero_add, hend] at hstart
    rw [parse?, htext]
    exact hstart

/-- **The reader takes the JSON texts that nest below the limit, and no others.** -/
theorem parse?_eq_some_iff {text : String} :
    parse? text = some tree ↔ IsText tree text.toList ∧ tree.nesting < nestingLimit := by
  constructor
  · intro h
    have htext := isText_of_parse? h
    rw [parse?_of_isText htext] at h
    split at h
    · rename_i hnesting
      exact ⟨htext, hnesting⟩
    · exact absurd h (by simp)
  · rintro ⟨htext, hnesting⟩
    rw [parse?_of_isText htext, if_pos hnesting]

/-- What is refused is no JSON text, or nests too deep. -/
theorem parse?_eq_none_iff {text : String} :
    parse? text = none ↔ ∀ tree, IsText tree text.toList → nestingLimit ≤ tree.nesting := by
  rw [Option.eq_none_iff_forall_ne_some]
  refine forall_congr' fun tree => ?_
  rw [Ne, parse?_eq_some_iff, not_and, Nat.not_lt]

end SqlTemplate.Json
