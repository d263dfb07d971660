import SqlTemplate.Proofs.Format.LeadingNumbers
import SqlTemplate.Proofs.Json.Steps

/-!
The grammar of JSON texts, and that the reader keeps to it.

`Json.Spells` says which texts a tree is written as, by constructors that follow the grammar: the
words, numbers without a plus sign or a superfluous zero, strings with their escapes, and containers
with blanks around what they hold. The reader is told of no grammar; it takes one character at a
time. What it has taken so far is a beginning of a text by the grammar, and what is still open in
that beginning is what the state holds (`Reads`). Every step keeps to this (`Reads.step`), so a tree
that is read is written in the text (`isText_of_parse?`).
-/

set_option autoImplicit false

namespace SqlTemplate.Json

variable {c : Char} {content body text pre read b digits : List Char} {code : Nat}
  {frames : List Frame} {expected : Expected} {tree : Json} {s s' : State}

/-! ## Blanks, numbers, strings -/

/-- White space, or nothing. -/
def Blank (text : List Char) : Prop := ∀ c ∈ text, isBlank c = true

theorem blank_nil : Blank [] := nofun

/-- One more white space keeps a blank. -/
theorem Blank.append_singleton (hb : Blank b) (hc : isBlank c = true) : Blank (b ++ [c]) := by
  intro d hd
  rcases List.mem_append.mp hd with hd | hd
  · exact hb d hd
  · rwa [List.mem_singleton.mp hd]

/-- A number: no plus sign in front, digits on both sides of a point, no zero in front of another
digit. -/
inductive NumberText : Numeral → List Char → Prop where
  | intro {n : Numeral} {exponent : List Char} (hne : n.whole ≠ [])
    (hzero : n.whole.head? = some '0' → n.whole = ['0'])
    (hwhole : ∀ c ∈ n.whole, c.isDigit = true) (hpoint : n.fraction ≠ some [])
    (hfraction : ∀ c ∈ n.fractionDigits, c.isDigit = true)
    (hexponent : ExponentText n.exponent exponent) :
    NumberText n ((if n.negative then ['-'] else [])
      ++ (n.whole ++ (Numeral.fractionText n.fraction ++ exponent)))

/-- Hexadecimal digits: the number they stand for, and how many they are. -/
inductive HexText : Nat → Nat → List Char → Prop where
  | nil : HexText 0 0 []
  | snoc {code digit count : Nat} {digits : List Char} {c : Char} (h : HexText code count digits)
    (hc : hexValue? c = some digit) : HexText (16 * code + digit) (count + 1) (digits ++ [c])

/-- A four-digit escape. -/
inductive CodeText : Nat → List Char → Prop where
  | intro {code : Nat} {digits : List Char} (h : HexText code 4 digits) :
    CodeText code ('\\' :: 'u' :: digits)

/-- How a character is written in a string: as it is, by a one-letter escape, by a four-digit
escape, or by two of them, which are surrogates. -/
inductive CharText : Char → List Char → Prop where
  | plain {c : Char} (hquote : c ≠ '\"') (hescape : c ≠ '\\') (hcontrol : 0x20 ≤ c.toNat) :
    CharText c [c]
  | letter {c d : Char} (h : escapedChar? d = some c) : CharText c ['\\', d]
  | code {code : Nat} {escape : List Char} (h : CodeText code escape)
    (hfirst : isFirstSurrogate code = false) (hsecond : isSecondSurrogate code = false) :
    CharText (Char.ofNat code) escape
  | pair {first second : Nat} {escape escape' : List Char} (h : CodeText first escape)
    (h' : CodeText second escape') (hfirst : isFirstSurrogate first = true)
    (hsecond : isSecondSurrogate second = true) :
    CharText (Char.ofNat (0x10000 + (first - 0xD800) * 0x400 + (second - 0xDC00)))
      (escape ++ escape')

/-- How the content of a string is written between the quotes. -/
inductive StringText : List Char → List Char → Prop where
  | nil : StringText [] []
  | snoc {content body char : List Char} {c : Char} (h : StringText content body)
    (hc : CharText c char) : StringText (content ++ [c]) (body ++ char)

/-! ## Trees -/

mutual

/-- How a tree is written, without blanks around it. -/
inductive Spells : Json → List Char → Prop where
  | null : Spells .null "null".toList
  | true : Spells (.bool true) "true".toList
  | false : Spells (.bool false) "false".toList
  | number {n : Numeral} {text : List Char} (h : NumberText n text) : Spells (.number n) text
  | string {content body : List Char} (h : StringText content body) :
    Spells (.string (String.ofList content)) ('\"' :: (body ++ ['\"']))
  | emptyArray {b : List Char} (hb : Blank b) : Spells (.array []) ('[' :: (b ++ [']']))
  | array {items : List Json} {text b : List Char} (h : ItemsText items text) (hb : Blank b) :
    Spells (.array items) ('[' :: (text ++ (b ++ [']'])))
  | emptyObject {b : List Char} (hb : Blank b) : Spells (.object []) ('\x7b' :: (b ++ ['\x7d']))
  | object {members : List (String × Json)} {text b : List Char} (h : MembersText members text)
    (hb : Blank b) : Spells (.object members) ('\x7b' :: (text ++ (b ++ ['\x7d'])))

/-- One item or more, with commas between them. -/
inductive ItemsText : List Json → List Char → Prop where
  | first {item : Json} {b text : List Char} (hb : Blank b) (h : Spells item text) :
    ItemsText [item] (b ++ text)
  | next {items : List Json} {item : Json} {texts b b' text : List Char}
    (hitems : ItemsText items texts) (hb : Blank b) (hb' : Blank b') (h : Spells item text) :
    ItemsText (items ++ [item]) (texts ++ (b ++ ',' :: (b' ++ text)))

/-- A name in quotes, a colon, a tree. -/
inductive MemberText : String × Json → List Char → Prop where
  | intro {content body b b' text : List Char} {tree : Json} (hname : StringText content body)
    (hb : Blank b) (hb' : Blank b') (h : Spells tree text) :
    MemberText (String.ofList content, tree)
      ('\"' :: (body ++ '\"' :: (b ++ ':' :: (b' ++ text))))

/-- One member or more, with commas between them. -/
inductive MembersText : List (String × Json) → List Char → Prop where
  | first {member : String × Json} {b text : List Char} (hb : Blank b)
    (h : MemberText member text) : MembersText [member] (b ++ text)
  | next {members : List (String × Json)} {member : String × Json} {texts b b' text : List Char}
    (hmembers : MembersText members texts) (hb : Blank b) (hb' : Blank b')
    (h : MemberText member text) :
    MembersText (members ++ [member]) (texts ++ (b ++ ',' :: (b' ++ text)))

end

/-- A further item, with the items in reverse. -/
theorem ItemsText.cons_reverse {rev : List Json} {item : Json} {texts b' : List Char}
    (hitems : ItemsText rev.reverse texts) (hb : Blank b) (hb' : Blank b') (h : Spells item text) :
    ItemsText (item :: rev).reverse (texts ++ (b ++ ',' :: (b' ++ text))) := by
  rw [List.reverse_cons]
  exact .next hitems hb hb' h

/-- A further member, with the members in reverse. -/
theorem MembersText.cons_reverse {rev : List (String × Json)} {member : String × Json}
    {texts b' : List Char} (hmembers : MembersText rev.reverse texts) (hb : Blank b)
    (hb' : Blank b') (h : MemberText member text) :
    MembersText (member :: rev).reverse (texts ++ (b ++ ',' :: (b' ++ text))) := by
  rw [List.reverse_cons]
  exact .next hmembers hb hb' h

/-- A JSON text: how a tree is written, with blanks around it. -/
inductive IsText : Json → List Char → Prop where
  | intro {tree : Json} {b text b' : List Char} (hb : Blank b) (h : Spells tree text)
    (hb' : Blank b') : IsText tree (b ++ (text ++ b'))

/-! ## Beginnings of texts -/

/-- Where a tree may begin. -/
def Expected.takesValue : Expected → Bool
  | .value | .firstItem => true
  | _ => false

/-- Where the name of a member may begin. -/
def Expected.takesName : Expected → Bool
  | .firstName | .name => true
  | _ => false

/-- The beginning of a text up to the end of a lexical unit, with the containers that are open there
and what is expected next. -/
inductive Begins : List Frame → Expected → List Char → Prop where
  | start : Begins [] .value []
  | done {tree : Json} {b text : List Char} (hb : Blank b) (h : Spells tree text) :
    Begins [] (.nothing tree) (b ++ text)
  | openArray {frames : List Frame} {expected : Expected} {pre b : List Char}
    (h : Begins frames expected pre) (hexpected : expected.takesValue = true) (hb : Blank b) :
    Begins (.array [] :: frames) .firstItem (pre ++ (b ++ ['[']))
  | item {frames : List Frame} {expected : Expected} {pre b items : List Char} {rev : List Json}
    (h : Begins frames expected pre) (hexpected : expected.takesValue = true) (hb : Blank b)
    (hitems : ItemsText rev.reverse items) :
    Begins (.array rev :: frames) .separator (pre ++ (b ++ '[' :: items))
  | itemComma {frames : List Frame} {pre b : List Char} {rev : List Json}
    (h : Begins (.array rev :: frames) .separator pre) (hb : Blank b) :
    Begins (.array rev :: frames) .value (pre ++ (b ++ [',']))
  | openObject {frames : List Frame} {expected : Expected} {pre b : List Char}
    (h : Begins frames expected pre) (hexpected : expected.takesValue = true) (hb : Blank b) :
    Begins (.object [] :: frames) .firstName (pre ++ (b ++ ['\x7b']))
  | name {frames : List Frame} {members : List (String × Json)} {expected : Expected}
    {pre b content body : List Char} (h : Begins (.object members :: frames) expected pre)
    (hexpected : expected.takesName = true) (hb : Blank b) (hname : StringText content body) :
    Begins (.member members (String.ofList content) :: frames) .colon
      (pre ++ (b ++ '\"' :: (body ++ ['\"'])))
  | colon {frames : List Frame} {members : List (String × Json)} {name : String}
    {pre b : List Char} (h : Begins (.member members name :: frames) .colon pre) (hb : Blank b) :
    Begins (.member members name :: frames) .value (pre ++ (b ++ [':']))
  | member {frames : List Frame} {expected : Expected} {pre b members : List Char}
    {rev : List (String × Json)} (h : Begins frames expected pre)
    (hexpected : expected.takesValue = true) (hb : Blank b)
    (hmembers : MembersText rev.reverse members) :
    Begins (.object rev :: frames) .separator (pre ++ (b ++ '\x7b' :: members))
  | memberComma {frames : List Frame} {pre b : List Char} {rev : List (String × Json)}
    (h : Begins (.object rev :: frames) .separator pre) (hb : Blank b) :
    Begins (.object rev :: frames) .name (pre ++ (b ++ [',']))

/-- The part of a string that is written so far, after the quote. The content is in reverse. -/
inductive InText : List Char → InString → List Char → Prop where
  | plain {content body : List Char} (h : StringText content.reverse body) :
    InText content .plain body
  | escape {content body : List Char} (h : StringText content.reverse body) :
    InText content .escape (body ++ ['\\'])
  | hex {content body digits : List Char} {code count : Nat} (h : StringText content.reverse body)
    (hcode : HexText code count digits) (hcount : count < 4) :
    InText content (.hex none code count) (body ++ '\\' :: 'u' :: digits)
  | partner {content body escape : List Char} {first : Nat} (h : StringText content.reverse body)
    (hcode : CodeText first escape) (hfirst : isFirstSurrogate first = true) :
    InText content (.partner first) (body ++ escape)
  | partnerMark {content body escape : List Char} {first : Nat}
    (h : StringText content.reverse body) (hcode : CodeText first escape)
    (hfirst : isFirstSurrogate first = true) :
    InText content (.partnerMark first) (body ++ (escape ++ ['\\']))
  | secondHex {content body escape digits : List Char} {first code count : Nat}
    (h : StringText content.reverse body) (hfirst : CodeText first escape)
    (hsurrogate : isFirstSurrogate first = true) (hcode : HexText code count digits)
    (hcount : count < 4) :
    InText content (.hex (some first) code count)
      (body ++ (escape ++ '\\' :: 'u' :: digits))

/-- What the reader has taken when it is in a state. -/
inductive Reads : State → List Char → Prop where
  | between {frames : List Frame} {expected : Expected} {pre b : List Char}
    (h : Begins frames expected pre) (hb : Blank b) :
    Reads ⟨frames, .between expected⟩ (pre ++ b)
  | string {frames : List Frame} {expected : Expected} {pre b content body : List Char}
    {inside : InString} (h : Begins frames expected pre)
    (hexpected : expected.takesValue = true ∨ expected.takesName = true) (hb : Blank b)
    (hbody : InText content inside body) :
    Reads ⟨frames, .string content inside⟩ (pre ++ (b ++ '\"' :: body))
  | word {frames : List Frame} {expected : Expected} {pre b read rest : List Char} {tree : Json}
    (h : Begins frames expected pre) (hexpected : expected.takesValue = true) (hb : Blank b)
    (htree : Spells tree (read ++ rest)) :
    Reads ⟨frames, .word rest tree⟩ (pre ++ (b ++ read))
  | number {frames : List Frame} {expected : Expected} {pre b content : List Char}
    (h : Begins frames expected pre) (hexpected : expected.takesValue = true) (hb : Blank b) :
    Reads ⟨frames, .number content⟩ (pre ++ (b ++ content.reverse))

/-! ## Between lexical units -/

/-- At the end of a lexical unit there is no blank yet. -/
theorem Reads.of_begins (h : Begins frames expected text) :
    Reads ⟨frames, .between expected⟩ text := by
  have hreads := Reads.between h blank_nil
  rwa [List.append_nil] at hreads

/-- A tree is written where one may begin. -/
theorem reads_of_complete (h : Begins frames expected pre) (hexpected : expected.takesValue = true)
    (hb : Blank b) (htree : Spells tree text) (hs : complete tree frames = some s) :
    Reads s (pre ++ (b ++ text)) := by
  cases h with
  | start =>
    obtain rfl := Option.some.inj hs
    rw [List.nil_append]
    exact .of_begins (.done hb htree)
  | openArray h hvalue hb' =>
    obtain rfl := Option.some.inj hs
    have hitems : ItemsText [tree].reverse (b ++ text) := .first hb htree
    simpa using Reads.of_begins (.item h hvalue hb' hitems)
  | itemComma h hb' =>
    obtain rfl := Option.some.inj hs
    cases h with
    | item h hvalue hb'' hitems =>
      simpa using Reads.of_begins (.item h hvalue hb'' (hitems.cons_reverse hb' hb htree))
  | colon h hb' =>
    -- Back from the colon to the name, and from there to where the object is open.
    obtain rfl := Option.some.inj hs
    cases h with
    | name h hname hb'' hcontent =>
      have hmember := MemberText.intro hcontent hb' hb htree
      cases h with
      | openObject h hvalue hb''' =>
        have hmembers : MembersText (List.reverse [_]) _ := .first hb'' hmember
        simpa using Reads.of_begins (.member h hvalue hb''' hmembers)
      | memberComma h hb''' =>
        cases h with
        | member h hvalue hb'''' hmembers =>
          have hnext := hmembers.cons_reverse hb''' hb'' hmember
          simpa using Reads.of_begins (.member h hvalue hb'''' hnext)
      | _ => exact absurd hname (by simp [Expected.takesName])
  | _ => exact absurd hexpected (by simp [Expected.takesValue])

/-- A string is written where it is due as a name or as a tree. -/
theorem reads_of_completeString (h : Begins frames expected pre)
    (hexpected : expected.takesValue = true ∨ expected.takesName = true) (hb : Blank b)
    (hbody : StringText content.reverse body) (hs : completeString content frames = some s) :
    Reads s (pre ++ (b ++ '\"' :: (body ++ ['\"']))) := by
  rcases hexpected with hvalue | hname
  · have hcomplete : complete (.string (String.ofList content.reverse)) frames = some s := by
      cases h with
      | start | openArray | itemComma | colon => exact hs
      | _ => exact absurd hvalue (by simp [Expected.takesValue])
    exact reads_of_complete h hvalue hb (.string hbody) hcomplete
  · -- Where a name is due, an object is innermost.
    have hmember := fun members rest (hframes : frames = .object members :: rest) =>
      Reads.of_begins (.name (hframes ▸ h) hname hb hbody)
    cases h with
    | openObject | memberComma =>
      obtain rfl := Option.some.inj hs
      exact hmember _ _ rfl
    | _ => exact absurd hname (by simp [Expected.takesName])

/-- What closes a container makes it a tree. -/
theorem closeFrame_cases (hs : closeFrame c frames = some s) :
    (∃ items fs, frames = .array items :: fs ∧ c = ']'
        ∧ complete (.array items.reverse) fs = some s)
      ∨ (∃ members fs, frames = .object members :: fs ∧ c = '\x7d'
        ∧ complete (.object members.reverse) fs = some s) := by
  unfold closeFrame at hs
  split at hs
  · split_ifs at hs with hc
    exact Or.inl ⟨_, _, rfl, hc, hs⟩
  · split_ifs at hs with hc
    exact Or.inr ⟨_, _, rfl, hc, hs⟩
  · exact absurd hs (by simp)

/-- A closing bracket or brace ends the text of its container. -/
theorem reads_of_closeFrame (h : Begins frames expected pre)
    (hexpected : expected = .firstItem ∨ expected = .firstName ∨ expected = .separator)
    (hb : Blank b) (hs : closeFrame c frames = some s) : Reads s (pre ++ (b ++ [c])) := by
  rcases closeFrame_cases hs with ⟨items, fs, rfl, rfl, hs⟩ | ⟨members, fs, rfl, rfl, hs⟩
  · cases h with
    | openArray h hvalue hb' =>
      simpa using reads_of_complete h hvalue hb' (.emptyArray hb) hs
    | item h hvalue hb' hitems =>
      simpa using reads_of_complete h hvalue hb' (.array hitems hb) hs
    | itemComma => exact absurd hexpected (by simp)
  · cases h with
    | openObject h hvalue hb' =>
      simpa using reads_of_complete h hvalue hb' (.emptyObject hb) hs
    | member h hvalue hb' hmembers =>
      simpa using reads_of_complete h hvalue hb' (.object hmembers hb) hs
    | memberComma => exact absurd hexpected (by simp)

/-- A comma goes on with the text of its container. -/
theorem reads_of_afterComma (h : Begins frames .separator pre) (hb : Blank b)
    (hs : afterComma frames = some s) : Reads s (pre ++ (b ++ [','])) := by
  cases h with
  | item h hvalue hb' hitems =>
    obtain rfl := Option.some.inj hs
    exact .of_begins (.itemComma (.item h hvalue hb' hitems) hb)
  | member h hvalue hb' hmembers =>
    obtain rfl := Option.some.inj hs
    exact .of_begins (.memberComma (.member h hvalue hb' hmembers) hb)

/-- A container that opens is the innermost one. -/
theorem eq_of_openFrame {frame : Frame} (hs : openFrame frame frames expected = some s) :
    s = ⟨frame :: frames, .between expected⟩ := by
  rw [openFrame] at hs
  split_ifs at hs
  exact (Option.some.inj hs).symm

/-- A quote begins a string. -/
theorem reads_of_beginString (h : Begins frames expected pre)
    (hexpected : expected.takesValue = true ∨ expected.takesName = true) (hb : Blank b) :
    Reads ⟨frames, .string [] .plain⟩ (pre ++ (b ++ ['\"'])) :=
  .string h hexpected hb (.plain .nil)

/-- The first character of a value goes on with the text. -/
theorem reads_of_beginValue (h : Begins frames expected pre)
    (hexpected : expected.takesValue = true) (hb : Blank b) (hs : beginValue c frames = some s) :
    Reads s (pre ++ (b ++ [c])) := by
  unfold beginValue at hs
  -- Brackets, a quote, the three words, and then a number.
  split_ifs at hs with harray hobject hquote ht hf hn hnumber
  · rw [harray, eq_of_openFrame hs]
    exact .of_begins (.openArray h hexpected hb)
  · rw [hobject, eq_of_openFrame hs]
    exact .of_begins (.openObject h hexpected hb)
  · obtain rfl := Option.some.inj hs
    rw [hquote]
    exact reads_of_beginString h (Or.inl hexpected) hb
  · obtain rfl := Option.some.inj hs
    rw [ht]
    exact .word h hexpected hb .true
  · obtain rfl := Option.some.inj hs
    rw [hf]
    exact .word h hexpected hb .false
  · obtain rfl := Option.some.inj hs
    rw [hn]
    exact .word h hexpected hb .null
  · obtain rfl := Option.some.inj hs
    exact .number h hexpected hb

/-- The first character of a name goes on with the text. -/
theorem reads_of_beginName (h : Begins frames expected pre)
    (hexpected : expected.takesName = true) (hb : Blank b) (hs : beginName c frames = some s) :
    Reads s (pre ++ (b ++ [c])) := by
  unfold beginName at hs
  split_ifs at hs with hc
  obtain rfl := Option.some.inj hs
  rw [hc]
  exact reads_of_beginString h (Or.inr hexpected) hb

theorem reads_of_stepBetween (h : Reads ⟨frames, .between expected⟩ text)
    (hs : stepBetween frames expected c = some s) : Reads s (text ++ [c]) := by
  cases h with
  | @between _ _ pre b h hb =>
  rw [List.append_assoc]
  unfold stepBetween at hs
  by_cases hblank : isBlank c = true
  · rw [if_pos hblank] at hs
    obtain rfl := Option.some.inj hs
    exact .between h (hb.append_singleton hblank)
  · rw [if_neg hblank] at hs
    cases expected with
    | value => exact reads_of_beginValue h rfl hb hs
    | firstItem =>
      dsimp only at hs
      split_ifs at hs
      · exact reads_of_closeFrame h (by simp) hb hs
      · exact reads_of_beginValue h rfl hb hs
    | firstName =>
      dsimp only at hs
      split_ifs at hs
      · exact reads_of_closeFrame h (by simp) hb hs
      · exact reads_of_beginName h rfl hb hs
    | name => exact reads_of_beginName h rfl hb hs
    | colon =>
      dsimp only at hs
      split_ifs at hs with hc
      obtain rfl := Option.some.inj hs
      subst hc
      -- Only the name of a member comes before a colon.
      cases h with
      | name h hname hb' hcontent =>
        exact .of_begins (.colon (.name h hname hb' hcontent) hb)
    | separator =>
      dsimp only at hs
      split_ifs at hs with hc
      · subst hc
        exact reads_of_afterComma h hb hs
      · exact reads_of_closeFrame h (by simp) hb hs
    | nothing tree => exact absurd hs (by simp)

/-! ## Inside lexical units -/

/-- A fraction part that is read has its point and digits behind it, or is not there. -/
theorem eq_of_readFraction? {fraction : Option (List Char)} {rest : List Char}
    (h : readFraction? text = some (fraction, rest)) :
    text = Numeral.fractionText fraction ++ rest ∧ fraction ≠ some []
      ∧ ∀ c ∈ fraction.getD [], c.isDigit = true := by
  cases text with
  | nil =>
    obtain ⟨rfl, rfl⟩ := Prod.mk.inj (Option.some.inj h)
    exact ⟨rfl, nofun, nofun⟩
  | cons c text =>
    rcases hread : Numeral.readDigits text with ⟨digits, after⟩
    obtain ⟨rfl, hdigits⟩ := Numeral.eq_of_readDigits hread
    rw [readFraction?] at h
    simp only [hread] at h
    split_ifs at h with hpoint hnone
    · obtain ⟨rfl, rfl⟩ := Prod.mk.inj (Option.some.inj h)
      rw [hpoint]
      exact ⟨rfl, fun hempty => hnone (Option.some.inj hempty), hdigits⟩
    · obtain ⟨rfl, rfl⟩ := Prod.mk.inj (Option.some.inj h)
      exact ⟨rfl, nofun, nofun⟩

/-- A number that is read is one by the grammar. -/
theorem numberText_of_readNumber? {n : Numeral} (h : readNumber? text = some n) :
    NumberText n text := by
  rcases hsign : (if text.head? = some '-' then (true, text.tail) else (false, text))
    with ⟨negative, unsigned⟩
  rcases hwhole : Numeral.readDigits unsigned with ⟨whole, afterWhole⟩
  -- The sign is the one part that the reader of characters takes off by itself.
  have htext : text = (if negative then ['-'] else []) ++ unsigned := by
    split_ifs at hsign with hminus
    · obtain ⟨rfl, rfl⟩ := Prod.mk.inj hsign
      obtain ⟨rest, rfl⟩ := List.head?_eq_some_iff.mp hminus
      rfl
    · obtain ⟨rfl, rfl⟩ := Prod.mk.inj hsign
      rfl
  obtain ⟨rfl, hdigits⟩ := Numeral.eq_of_readDigits hwhole
  rw [readNumber?] at h
  simp only [hsign, hwhole] at h
  split_ifs at h with hbad
  obtain ⟨hne, hzero⟩ := not_or.mp hbad
  split at h
  · exact absurd h (by simp)
  · rename_i fraction afterFraction hfraction
    obtain ⟨rfl, hpoint, hfractionDigits⟩ := eq_of_readFraction? hfraction
    rcases hread : Numeral.readExponent afterFraction with ⟨power, rest⟩
    obtain ⟨exponent, hexponent, rfl⟩ := Numeral.eq_of_readExponent hread
    simp only [hread] at h
    split_ifs at h with hrest
    obtain rfl := Option.some.inj h
    rw [htext, hrest, List.append_nil]
    have honly (hhead : whole.head? = some '0') : whole = ['0'] :=
      Decidable.byContradiction fun hlong => hzero ⟨hhead, hlong⟩
    exact .intro hne honly hdigits hpoint hfractionDigits hexponent

/-- A character of a string goes on with the part of the string that is written so far. -/
theorem inText_of_stepString {inside : InString} {position : Position}
    (h : InText content inside body) (hquote : inside = .plain → c ≠ '\"')
    (hs : stepString content inside c = some position) :
    ∃ content' inside', position = .string content' inside'
      ∧ InText content' inside' (body ++ [c]) := by
  -- The content is kept in reverse order, so a new character is at its head.
  have snoc {d : Char} {body char : List Char} (h : StringText content.reverse body)
      (hd : CharText d char) : InText (d :: content) .plain (body ++ char) :=
    .plain (by rw [List.reverse_cons]; exact .snoc h hd)
  unfold stepString at hs
  cases h with
  | plain h =>
    dsimp only at hs
    split_ifs at hs with hescape hcontrol
    · obtain rfl := Option.some.inj hs
      rw [hescape]
      exact ⟨_, _, rfl, .escape h⟩
    · obtain rfl := Option.some.inj hs
      exact ⟨_, _, rfl, snoc h (.plain (hquote rfl) hescape (Nat.le_of_not_lt hcontrol))⟩
  | @escape body h =>
    dsimp only at hs
    rw [List.append_assoc]
    split_ifs at hs with hu
    · obtain rfl := Option.some.inj hs
      rw [hu]
      exact ⟨_, _, rfl, .hex h .nil (by decide)⟩
    · obtain ⟨d, hd, rfl⟩ := Option.map_eq_some_iff.mp hs
      exact ⟨_, _, rfl, snoc h (.letter hd)⟩
  | @hex body digits code count h hcode hcount =>
    dsimp only at hs
    rw [List.append_assoc]
    split at hs
    · exact absurd hs (by simp)
    rename_i digit hdigit
    have hnext := hcode.snoc hdigit
    split_ifs at hs with hmore
    · obtain rfl := Option.some.inj hs
      exact ⟨_, _, rfl, .hex h hnext (Nat.succ_lt_succ hmore)⟩
    · -- The fourth digit ends the escape. A first surrogate waits for the second one.
      obtain rfl : count = 3 := by omega
      have hescape := CodeText.intro hnext
      rw [completeHex] at hs
      split_ifs at hs with hfirst hsecond
      · obtain rfl := Option.some.inj hs
        exact ⟨_, _, rfl, .partner h hescape hfirst⟩
      · obtain rfl := Option.some.inj hs
        exact ⟨_, _, rfl, snoc h (.code hescape (Bool.eq_false_iff.mpr hfirst)
          (Bool.eq_false_iff.mpr hsecond))⟩
  | partner h hcode hfirst =>
    dsimp only at hs
    split_ifs at hs with hc
    obtain rfl := Option.some.inj hs
    rw [hc, List.append_assoc]
    exact ⟨_, _, rfl, .partnerMark h hcode hfirst⟩
  | partnerMark h hcode hfirst =>
    dsimp only at hs
    split_ifs at hs with hc
    obtain rfl := Option.some.inj hs
    rw [hc, List.append_assoc, List.append_assoc]
    exact ⟨_, _, rfl, .secondHex h hcode hfirst .nil (by decide)⟩
  | @secondHex body escape digits first code count h hfirst hsurrogate hcode hcount =>
    dsimp only at hs
    rw [List.append_assoc, List.append_assoc]
    split at hs
    · exact absurd hs (by simp)
    rename_i digit hdigit
    have hnext := hcode.snoc hdigit
    split_ifs at hs with hmore
    · obtain rfl := Option.some.inj hs
      exact ⟨_, _, rfl, .secondHex h hfirst hsurrogate hnext (Nat.succ_lt_succ hmore)⟩
    · obtain rfl : count = 3 := by omega
      rw [completeHex] at hs
      split_ifs at hs with hsecond
      obtain rfl := Option.some.inj hs
      exact ⟨_, _, rfl, snoc h (.pair hfirst (.intro hnext) hsurrogate hsecond)⟩

/-! ## Runs -/

/-- A number is written where it is due. -/
theorem reads_of_completeNumber (h : Begins frames expected pre)
    (hexpected : expected.takesValue = true) (hb : Blank b)
    (hs : completeNumber content frames = some s) : Reads s (pre ++ (b ++ content.reverse)) := by
  obtain ⟨n, hn, hcomplete⟩ := Option.bind_eq_some_iff.mp hs
  exact reads_of_complete h hexpected hb (.number (numberText_of_readNumber? hn)) hcomplete

/-- **A step goes on with the beginning of a text.** -/
theorem Reads.step (h : Reads s text) (hs : step s c = some s') : Reads s' (text ++ [c]) := by
  have hreads := h
  cases h with
  | between => exact reads_of_stepBetween hreads hs
  | @string frames expected pre b content body inside h hexpected hb hbody =>
    rw [List.append_assoc, List.append_assoc, List.cons_append]
    by_cases hend : inside = .plain ∧ c = '\"'
    · obtain ⟨rfl, rfl⟩ := hend
      cases hbody with
      | plain hbody => exact reads_of_completeString h hexpected hb hbody hs
    · have hquote : inside = .plain → c ≠ '\"' := fun hplain hc => hend ⟨hplain, hc⟩
      have hstep : (stepString content inside c).map (State.mk frames) = some s' := by
        rw [← hs]
        cases inside with
        | plain => exact (if_neg (hquote rfl)).symm
        | _ => rfl
      obtain ⟨position, hposition, rfl⟩ := Option.map_eq_some_iff.mp hstep
      obtain ⟨content', inside', rfl, hbody'⟩ := inText_of_stepString hbody hquote hposition
      exact .string h hexpected hb hbody'
  | @word frames expected pre b read rest tree h hexpected hb htree =>
    rw [List.append_assoc, List.append_assoc]
    cases rest with
    | nil => exact absurd hs (by simp [Json.step])
    | cons next rest =>
      cases rest with
      | nil =>
        rw [Json.step] at hs
        dsimp only at hs
        split_ifs at hs with hc
        rw [hc]
        exact reads_of_complete h hexpected hb htree hs
      | cons next' rest =>
        rw [Json.step] at hs
        dsimp only at hs
        split_ifs at hs with hc
        obtain rfl := Option.some.inj hs
        rw [hc]
        exact .word h hexpected hb (by simpa using htree)
  | @number frames expected pre b content h hexpected hb =>
    by_cases hc : isNumberChar c = true
    · have hstep : Json.step ⟨frames, .number content⟩ c = some ⟨frames, .number (c :: content)⟩ :=
        if_pos hc
      obtain rfl := Option.some.inj (hstep.symm.trans hs)
      rw [List.append_assoc, List.append_assoc, ← List.reverse_cons]
      exact .number h hexpected hb
    · rw [step_number (Bool.eq_false_iff.mpr hc)] at hs
      obtain ⟨t, ht, hstep⟩ := Option.bind_eq_some_iff.mp hs
      -- The number is complete before the character, which is then read between lexical units.
      have hnumber := reads_of_completeNumber h hexpected hb ht
      obtain ⟨numeral, -, hcomplete⟩ := Option.bind_eq_some_iff.mp ht
      obtain ⟨fs, expected', rfl⟩ := exists_between_of_complete hcomplete
      exact reads_of_stepBetween hnumber hstep

/-- What is read in a run is a beginning of a text. -/
theorem Reads.run (h : Reads s pre) (hs : run s text = some s') : Reads s' (pre ++ text) := by
  induction text generalizing s pre with
  | nil =>
    obtain rfl := Option.some.inj hs
    rwa [List.append_nil]
  | cons c text ih =>
    rw [run_cons] at hs
    obtain ⟨t, ht, hs⟩ := Option.bind_eq_some_iff.mp hs
    have htext := ih (h.step ht) hs
    rwa [List.append_assoc] at htext

/-- A complete tree with blanks around it is a JSON text. -/
theorem Reads.isText (h : Reads ⟨frames, .between (.nothing tree)⟩ text) : IsText tree text := by
  cases h with
  | between h hb' =>
    cases h with
    | done hb htree =>
      rw [List.append_assoc]
      exact .intro hb htree hb'

/-- A state that ends with a tree has read a text of this tree. -/
theorem isText_of_finish (h : Reads s text) (hs : finish s = some tree) : IsText tree text := by
  cases h with
  | @between frames expected pre b h hb =>
    cases expected with
    | nothing tree =>
      obtain rfl := Option.some.inj hs
      exact (Reads.between h hb).isText
    | _ => exact absurd hs (by simp [finish])
  | @number frames expected pre b content h hexpected hb =>
    rw [finish] at hs
    dsimp only at hs
    split at hs
    · rename_i fs tree' hcomplete
      obtain rfl := Option.some.inj hs
      exact (reads_of_completeNumber h hexpected hb hcomplete).isText
    · exact absurd hs (by simp)
  | _ => exact absurd hs (by simp [finish])

/-- **A tree that is read from a text is written there.** -/
theorem isText_of_parse? {text : String} (h : parse? text = some tree) :
    IsText tree text.toList := by
  obtain ⟨s, hrun, hfinish⟩ := Option.bind_eq_some_iff.mp h
  exact isText_of_finish (Reads.run (.of_begins .start) hrun) hfinish

end SqlTemplate.Json
