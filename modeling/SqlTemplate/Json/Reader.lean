import SqlTemplate.Json.Tree
import SqlTemplate.Text.Escape

/-!
Reading JSON texts.

The reader is a machine that takes one character at a time. It holds the containers that are open,
innermost first, and where it stands: between two lexical units, or inside one. A text is read if
every character can be taken and the machine then stands after one complete tree. White space is
space, tab, line feed and carriage return only; characters below U+0020 stand in no string; a
surrogate escape needs its partner; and fewer than `nestingLimit` containers may be open at once.
-/

set_option autoImplicit false

namespace SqlTemplate.Json

/-- One container more than may be open at once. -/
def nestingLimit : Nat := 128

/-- A container that is open. What it holds so far is in reverse order. -/
inductive Frame where
  | array (items : List Json)
  /-- An object that waits for a member. -/
  | object (members : List (String × Json))
  /-- An object that waits for the value of the member with this name. -/
  | member (members : List (String × Json)) (name : String)

/-- What may come between lexical units. -/
inductive Expected where
  | value
  /-- The first item of an array, or its end. -/
  | firstItem
  /-- The first name in an object, or its end. -/
  | firstName
  | name
  | colon
  /-- A comma, or the end of the innermost container. -/
  | separator
  /-- Nothing, after one complete tree. -/
  | nothing (tree : Json)

/-- Where the machine stands inside a string. -/
inductive InString where
  | plain
  /-- After a backslash. -/
  | escape
  /-- After `count` digits of a four-digit escape, of value `code`; before that, in the case of a
  second surrogate, the first one. -/
  | hex (first : Option Nat) (code : Nat) (count : Nat)
  /-- After a first surrogate, where a backslash has to follow. -/
  | partner (first : Nat)
  /-- After a first surrogate and a backslash, where the letter `u` has to follow. -/
  | partnerMark (first : Nat)

/-- Where the machine stands. -/
inductive Position where
  | between (expected : Expected)
  /-- In a string, after these characters in reverse order. -/
  | string (content : List Char) (inside : InString)
  /-- In a word that stands for a tree, before these characters of it. -/
  | word (rest : List Char) (tree : Json)
  /-- In a number, after these characters in reverse order. -/
  | number (content : List Char)

/-- The machine. -/
structure State where
  frames : List Frame
  position : Position

/-- Before the first character. -/
def State.initial : State := ⟨[], .between .value⟩

/-! ## Between lexical units -/

/-- A tree is complete: it goes into the innermost container. -/
def complete (tree : Json) : List Frame → Option State
  | [] => some ⟨[], .between (.nothing tree)⟩
  | .array items :: frames => some ⟨.array (tree :: items) :: frames, .between .separator⟩
  | .member members name :: frames =>
    some ⟨.object ((name, tree) :: members) :: frames, .between .separator⟩
  | .object _ :: _ => none

/-- A string is complete: it is a name where a name is due, and a tree elsewhere. -/
def completeString (content : List Char) : List Frame → Option State
  | .object members :: frames =>
    some ⟨.member members (String.ofList content.reverse) :: frames, .between .colon⟩
  | frames => complete (.string (String.ofList content.reverse)) frames

/-- A container opens. -/
def openFrame (frame : Frame) (frames : List Frame) (expected : Expected) : Option State :=
  if frames.length + 1 < nestingLimit then some ⟨frame :: frames, .between expected⟩ else none

/-- The innermost container closes. -/
def closeFrame (c : Char) : List Frame → Option State
  | .array items :: frames => if c = ']' then complete (.array items.reverse) frames else none
  | .object members :: frames =>
    if c = '}' then complete (.object members.reverse) frames else none
  | _ => none

/-- The characters of numbers. -/
def isNumberChar (c : Char) : Bool :=
  c.isDigit || c == '-' || c == '+' || c == '.' || c == 'e' || c == 'E'

/-- White space. -/
def isBlank (c : Char) : Bool :=
  c == ' ' || c == '\t' || c == '\n' || c == '\r'

/-- The first character of a value. -/
def beginValue (c : Char) (frames : List Frame) : Option State :=
  if c = '[' then openFrame (.array []) frames .firstItem
  else if c = '{' then openFrame (.object []) frames .firstName
  else if c = '\"' then some ⟨frames, .string [] .plain⟩
  else if c = 't' then some ⟨frames, .word "rue".toList (.bool true)⟩
  else if c = 'f' then some ⟨frames, .word "alse".toList (.bool false)⟩
  else if c = 'n' then some ⟨frames, .word "ull".toList .null⟩
  else if c = '-' ∨ c.isDigit then some ⟨frames, .number [c]⟩
  else none

/-- The first character of the name of a member. -/
def beginName (c : Char) (frames : List Frame) : Option State :=
  if c = '\"' then some ⟨frames, .string [] .plain⟩ else none

/-- After a comma in the innermost container. -/
def afterComma : List Frame → Option State
  | frames@(.array _ :: _) => some ⟨frames, .between .value⟩
  | frames@(.object _ :: _) => some ⟨frames, .between .name⟩
  | _ => none

/-- One character between lexical units. -/
def stepBetween (frames : List Frame) (expected : Expected) (c : Char) : Option State :=
  if isBlank c then some ⟨frames, .between expected⟩
  else
    match expected with
    | .value => beginValue c frames
    | .firstItem => if c = ']' then closeFrame c frames else beginValue c frames
    | .firstName => if c = '}' then closeFrame c frames else beginName c frames
    | .name => beginName c frames
    | .colon => if c = ':' then some ⟨frames, .between .value⟩ else none
    | .separator => if c = ',' then afterComma frames else closeFrame c frames
    | .nothing _ => none

/-! ## Inside lexical units -/

/-- The character of a one-letter escape. -/
def escapedChar? (c : Char) : Option Char :=
  if c = '\"' ∨ c = '\\' ∨ c = '/' then some c
  else controlOfLetter? c

/-- The first of two surrogates. -/
def isFirstSurrogate (code : Nat) : Bool :=
  decide (0xD800 ≤ code ∧ code ≤ 0xDBFF)

/-- The second of two surrogates. -/
def isSecondSurrogate (code : Nat) : Bool :=
  decide (0xDC00 ≤ code ∧ code ≤ 0xDFFF)

/-- After the fourth digit of an escape. -/
def completeHex (content : List Char) (first : Option Nat) (code : Nat) : Option Position :=
  match first with
  | some first =>
    if isSecondSurrogate code then
      let both := 0x10000 + (first - 0xD800) * 0x400 + (code - 0xDC00)
      some (.string (Char.ofNat both :: content) .plain)
    else none
  | none =>
    if isFirstSurrogate code then some (.string content (.partner code))
    else if isSecondSurrogate code then none
    else some (.string (Char.ofNat code :: content) .plain)

/-- One character inside a string, other than the quote that ends it. -/
def stepString (content : List Char) (inside : InString) (c : Char) : Option Position :=
  match inside with
  | .plain =>
    if c = '\\' then some (.string content .escape)
    else if c.toNat < 0x20 then none
    else some (.string (c :: content) .plain)
  | .escape =>
    if c = 'u' then some (.string content (.hex none 0 0))
    else (escapedChar? c).map fun c => .string (c :: content) .plain
  | .hex first code count =>
    match hexValue? c with
    | none => none
    | some digit =>
      let code := 16 * code + digit
      if count < 3 then some (.string content (.hex first code (count + 1)))
      else completeHex content first code
  | .partner first => if c = '\\' then some (.string content (.partnerMark first)) else none
  | .partnerMark first => if c = 'u' then some (.string content (.hex (some first) 0 0)) else none

/-- A number is complete. -/
def completeNumber (content : List Char) (frames : List Frame) : Option State :=
  (readNumber? content.reverse).bind fun numeral => complete (.number numeral) frames

/-- One character. -/
def step (state : State) (c : Char) : Option State :=
  match state.position with
  | .between expected => stepBetween state.frames expected c
  | .string content .plain =>
    if c = '\"' then completeString content state.frames
    else (stepString content .plain c).map (State.mk state.frames)
  | .string content inside => (stepString content inside c).map (State.mk state.frames)
  | .word [] _ => none
  | .word [last] tree => if c = last then complete tree state.frames else none
  | .word (next :: rest) tree =>
    if c = next then some ⟨state.frames, .word rest tree⟩ else none
  | .number content =>
    if isNumberChar c then some ⟨state.frames, .number (c :: content)⟩
    else
      -- The character after a number is the first one that does not belong to it.
      match completeNumber content state.frames with
      | some ⟨frames, .between expected⟩ => stepBetween frames expected c
      | _ => none

/-- All characters of a text. -/
def run (state : State) (text : List Char) : Option State :=
  text.foldlM step state

/-- The tree at the end of a text. -/
def finish (state : State) : Option Json :=
  match state.position with
  | .between (.nothing tree) => some tree
  | .number content =>
    match completeNumber content state.frames with
    | some ⟨_, .between (.nothing tree)⟩ => some tree
    | _ => none
  | _ => none

/-- The tree of a JSON text. -/
def parse? (text : String) : Option Json :=
  (run .initial text.toList).bind finish

/-- The value of a JSON text. -/
def readValue? (text : String) : Option Value :=
  (parse? text).bind toValue?

end SqlTemplate.Json
