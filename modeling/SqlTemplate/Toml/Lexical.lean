import SqlTemplate.Text.Escape

/-!
The characters of TOML documents: white space, comments, line ends, keys and strings.

A reader takes what it reads off the head of a text and returns it with what follows, or fails.
Control characters other than the tab stand nowhere, lines end in a line feed or in a carriage
return and a line feed, and a string in triple quotes may end in up to two quotes of its own.
-/

set_option autoImplicit false

namespace SqlTemplate.Toml

/-- From a text to what stands at its head and what follows. -/
abbrev Reader (α : Type) := List Char → Option (α × List Char)

/-- Space and tab. -/
def isBlank (c : Char) : Bool :=
  c == ' ' || c == '\t'

/-- What follows white space within a line. -/
def dropBlanks (text : List Char) : List Char :=
  text.dropWhile isBlank

/-- What follows the end of a line. -/
def dropLineEnd? : List Char → Option (List Char)
  | [] => none
  | c :: rest =>
    if c = '\n' then some rest
    else if c = '\r' ∧ rest.head? = some '\n' then some rest.tail
    else none

/-- The characters of comments and strings: the tab, and all but the control characters of ASCII. -/
def isTextChar (c : Char) : Bool :=
  c == '\t' || (decide (0x20 ≤ c.toNat) && c != '\x7f')

/-- What follows a comment, up to the end of its line; the text itself if there is none. -/
def dropComment (text : List Char) : List Char :=
  if text.head? = some '#' then text.dropWhile isTextChar else text

/-- What follows the rest of a line: white space, a comment, and the end of the line or the text. -/
def dropLine? (text : List Char) : Option (List Char) :=
  match dropComment (dropBlanks text) with
  | [] => some []
  | rest => dropLineEnd? rest

/-! ## Strings -/

/-- The number that hexadecimal digits denote. -/
def hexNumber? (digits : List Char) : Option Nat :=
  digits.foldlM (fun n c => (hexValue? c).map (16 * n + ·)) 0

/-- The character of a hexadecimal escape; surrogates and what lies beyond Unicode are none. -/
def hexChar? (digits : List Char) : Option Char :=
  (hexNumber? digits).bind fun n =>
    if n < 0xD800 ∨ (0xDFFF < n ∧ n < 0x110000) then some (Char.ofNat n) else none

/-- The character of a one-letter escape. -/
def escapedChar? (c : Char) : Option Char :=
  if c = '\"' ∨ c = '\\' then some c
  else controlOfLetter? c

/-- The character of `count` hexadecimal digits, and what follows them. -/
def readHex (count : Nat) : Reader Char := fun text =>
  if text.length < count then none
  else (hexChar? (text.take count)).map fun escaped => (escaped, text.drop count)

/-- The character of an escape after its backslash, and what follows. -/
def readEscape : Reader Char
  | [] => none
  | c :: rest =>
    if c = 'u' then readHex 4 rest
    else if c = 'U' then readHex 8 rest
    else (escapedChar? c).map fun escaped => (escaped, rest)

theorem length_le_of_readHex {count : Nat} {text rest : List Char} {c : Char}
    (h : readHex count text = some (c, rest)) : rest.length ≤ text.length := by
  unfold readHex at h
  split at h
  · contradiction
  · obtain ⟨_, _, h⟩ := Option.map_eq_some_iff.1 h
    rw [← (Prod.mk.inj h).2, List.length_drop]
    omega

/-- An escape takes at least the letter after the backslash. -/
theorem length_lt_of_readEscape {text rest : List Char} {c : Char}
    (h : readEscape text = some (c, rest)) : rest.length < text.length := by
  cases text with
  | nil => simp [readEscape] at h
  | cons d after =>
    simp only [readEscape] at h
    rw [List.length_cons, Nat.lt_succ_iff]
    split at h
    · exact length_le_of_readHex h
    · split at h
      · exact length_le_of_readHex h
      · obtain ⟨_, _, h⟩ := Option.map_eq_some_iff.1 h
        exact (Prod.mk.inj h).2 ▸ Nat.le_refl _

/-- The rest of a string in double quotes. -/
def readBasic (text : List Char) : Option (List Char × List Char) :=
  match text with
  | [] => none
  | c :: rest =>
    if c = '\"' then some ([], rest)
    else if c = '\\' then
      match h : readEscape rest with
      | none => none
      | some (escaped, after) =>
        have := length_lt_of_readEscape h
        (readBasic after).map fun (content, after) => (escaped :: content, after)
    else if isTextChar c then
      (readBasic rest).map fun (content, after) => (c :: content, after)
    else none
termination_by text.length
decreasing_by all_goals simp only [List.length_cons]; omega

/-- The rest of a string in single quotes. -/
def readLiteral : List Char → Option (List Char × List Char)
  | [] => none
  | c :: rest =>
    if c = '\'' then some ([], rest)
    else if isTextChar c then
      (readLiteral rest).map fun (content, after) => (c :: content, after)
    else none

/-- The end of a string in triple quotes, at a run of quotes: up to two of its own come first. -/
def readClosing (quote : Char) (text : List Char) : Option (List Char × List Char) :=
  let count := (text.takeWhile (· == quote)).length
  if 3 ≤ count ∧ count ≤ 5 then some (List.replicate (count - 3) quote, text.drop count) else none

/-- What follows the first line break of a string in triple quotes, which is no part of it. -/
def dropFirstLineEnd (text : List Char) : List Char :=
  (dropLineEnd? text).getD text

/-- Whether nothing but white space comes before the end of the line. -/
def isLineEndAhead (text : List Char) : Bool :=
  (dropLineEnd? (dropBlanks text)).isSome

/-- What follows white space and line ends. -/
def dropSpace : List Char → List Char
  | [] => []
  | c :: rest =>
    if isBlank c || c == '\n' then dropSpace rest
    else if c = '\r' ∧ rest.head? = some '\n' then dropSpace rest
    else c :: rest

theorem length_dropSpace_le (text : List Char) : (dropSpace text).length ≤ text.length := by
  induction text with
  | nil => simp [dropSpace]
  | cons c rest ih =>
    simp only [dropSpace, List.length_cons]
    repeat' split
    all_goals first | omega | simp

/-- The rest of a string in triple double quotes. A backslash at the end of a line takes the white
space and line ends after it away. -/
def readLongBasic (text : List Char) : Option (List Char × List Char) :=
  match text with
  | [] => none
  | c :: rest =>
    if c = '\"' ∧ 3 ≤ (text.takeWhile (· == '\"')).length then readClosing '\"' text
    else if c = '\\' then
      if isLineEndAhead rest then
        have := length_dropSpace_le rest
        readLongBasic (dropSpace rest)
      else
        match h : readEscape rest with
        | none => none
        | some (escaped, after) =>
          have := length_lt_of_readEscape h
          (readLongBasic after).map fun (content, after) => (escaped :: content, after)
    else if c = '\n' ∨ isTextChar c then
      (readLongBasic rest).map fun (content, after) => (c :: content, after)
    else if c = '\r' ∧ rest.head? = some '\n' then readLongBasic rest
    else none
termination_by text.length
decreasing_by all_goals simp only [List.length_cons]; omega

/-- The rest of a string in triple single quotes. -/
def readLongLiteral : List Char → Option (List Char × List Char)
  | [] => none
  | c :: rest =>
    if c = '\'' ∧ 3 ≤ ((c :: rest).takeWhile (· == '\'')).length then readClosing '\'' (c :: rest)
    else if c = '\n' ∨ isTextChar c then
      (readLongLiteral rest).map fun (content, after) => (c :: content, after)
    else if c = '\r' ∧ rest.head? = some '\n' then readLongLiteral rest
    else none

/-- Characters as a string, with what follows. -/
def asString (read : Option (List Char × List Char)) : Option (String × List Char) :=
  read.map fun (content, rest) => (String.ofList content, rest)

/-- A string of any of the four kinds. -/
def readString : Reader String
  | '\"' :: '\"' :: '\"' :: rest => asString (readLongBasic (dropFirstLineEnd rest))
  | '\'' :: '\'' :: '\'' :: rest => asString (readLongLiteral (dropFirstLineEnd rest))
  | '\"' :: rest => asString (readBasic rest)
  | '\'' :: rest => asString (readLiteral rest)
  | _ => none

/-! ## Keys -/

/-- The characters of keys without quotes. -/
def isKeyChar (c : Char) : Bool :=
  c.isAlphanum || c == '_' || c == '-'

/-- One part of a key. -/
def readSimpleKey : Reader String
  | '\"' :: rest => asString (readBasic rest)
  | '\'' :: rest => asString (readLiteral rest)
  | text =>
    let name := text.takeWhile isKeyChar
    if name = [] then none else some (String.ofList name, text.dropWhile isKeyChar)

/-- The parts of a key that follow its first one, each after a point; white space may stand around
the points. `fuel` bounds their number. -/
def readMoreKeys : Nat → Reader (List String)
  | 0, _ => none
  | fuel + 1, text =>
    match dropBlanks text with
    | '.' :: rest => do
      let (part, rest) ← readSimpleKey (dropBlanks rest)
      let (parts, rest) ← readMoreKeys fuel rest
      return (part :: parts, rest)
    | rest => some ([], rest)

/-- A key as the list of its parts, of which there are fewer than `limit`, with the white space
around it. -/
def readKey (limit : Nat) : Reader (List String) := fun text => do
  let (first, rest) ← readSimpleKey (dropBlanks text)
  let (parts, rest) ← readMoreKeys (rest.length + 1) rest
  if parts.length + 1 < limit then return (first :: parts, rest) else none

end SqlTemplate.Toml
