import SqlTemplate.Template.Basic

/-!
Reading a template from its text.

The text is cut twice. `Token.scan` cuts it into markers, single braces and maximal runs of other
characters. `Segment.ofTokens` then finds the blocks: an opening brace and the next brace after it,
if that one closes. All other braces are literal text, each a piece of its own. Both cuts run over
the text from its end, where the fate of an opening brace is already decided when it is met, so
nothing is ever read twice and every text has a reading.
-/

set_option autoImplicit false

namespace SqlTemplate

/-- The lexical units of a template. -/
inductive Token where
  /-- A run of characters other than braces and question marks. -/
  | run (content : List Char)
  | marker (marker : Marker)
  | openBrace
  | closeBrace
  deriving DecidableEq, Repr

namespace Token

/-- A plain character in front of the units after it: it joins a run that starts there. -/
def consPlain (c : Char) : List Token → List Token
  | run content :: rest => run (c :: content) :: rest
  | rest => run [c] :: rest

/-- The lexical units of a text. -/
def scan : List Char → List Token
  | [] => []
  | c :: rest =>
    if c = '{' then openBrace :: scan rest
    else if c = '}' then closeBrace :: scan rest
    else if c = '?' then
      match rest with
      | [] => [marker .scalar]
      | code :: after =>
        match Marker.ofChar? code with
        | some m => marker m :: scan after
        | none => marker .scalar :: scan (code :: after)
    else consPlain c (scan rest)

end Token

/-- What is known of a template's text from some point on: the pieces up to the next brace, whether
that brace is a closing one, and the segments after it. When it is not, `rest` begins with whatever
stands at that brace. -/
structure Outlook where
  pieces : List Piece
  closes : Bool
  rest : List Segment

namespace Outlook

/-- Nothing follows. -/
def finished : Outlook := ⟨[], false, []⟩

/-- The segments from here on, when no block is open. -/
def segments (ahead : Outlook) : List Segment :=
  ahead.pieces.map .piece
    ++ (if ahead.closes then .piece (.text "\x7d") :: ahead.rest else ahead.rest)

/-- One unit more on the left. -/
def cons (ahead : Outlook) : Token → Outlook
  | .run content => { ahead with pieces := .text (String.ofList content) :: ahead.pieces }
  | .marker m => { ahead with pieces := .marker m :: ahead.pieces }
  | .closeBrace => ⟨[], true, ahead.segments⟩
  | .openBrace =>
    if ahead.closes then ⟨[], false, .block ahead.pieces :: ahead.rest⟩
    else ⟨[], false, .piece (.text "\x7b") :: ahead.segments⟩

end Outlook

/-- The segments that a list of lexical units forms. -/
def Segment.ofTokens (tokens : List Token) : List Segment :=
  (tokens.foldr (fun token ahead => ahead.cons token) Outlook.finished).segments

/-- Every text is a template. -/
def Template.parse (source : String) : Template :=
  ⟨source, Segment.ofTokens (Token.scan source.toList)⟩

end SqlTemplate
