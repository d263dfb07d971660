/-!
Coloured text for terminals.

A style is a list of codes that a terminal understands. Coloured text stands between the codes of
its style and a reset; after a reset inside the text the style is set again. Whether there is any
colour is decided once for a run.
-/

set_option autoImplicit false

namespace SqlTemplate.CommandLine

/-- Look up a variable of the environment. -/
abbrev Environment := String → Option String

/-- Whether output is coloured: `CLICOLOR_FORCE` turns colour on, else `NO_COLOR` turns it off, else
it is on for a terminal unless `CLICOLOR` is `0`. -/
def usesColour (environment : Environment) (terminal : Bool) : Bool :=
  if (environment "CLICOLOR_FORCE").any (· != "0") then true
  else if (environment "NO_COLOR").isSome then false
  else terminal && (environment "CLICOLOR").all (· != "0")

/-- The codes of a style. -/
abbrev Style := List Nat

namespace Style

def title : Style := [1, 36]
def heading : Style := [1, 32]
def failure : Style := [1, 31]
def column : Style := [1, 37]
def name : Style := [36]
def template : Style := [33]
def plain : Style := [37]
def faint : Style := [2]

/-- The characters that set a style. -/
def set (style : Style) : List Char :=
  '\x1b' :: '[' :: (String.intercalate ";" (style.map toString)).toList ++ ['m']

/-- The characters that reset all styles. -/
def reset : List Char := ['\x1b', '[', '0', 'm']

/-- A text in which the style is set again after every reset. -/
def restore (style : Style) : List Char → List Char
  | '\x1b' :: '[' :: '0' :: 'm' :: rest => reset ++ style.set ++ restore style rest
  | c :: rest => c :: restore style rest
  | [] => []

end Style

/-- How texts are shown in a run: with colour, or as they are. -/
structure Painter where
  colour : Bool

namespace Painter

/-- A text in a style. -/
def paint (painter : Painter) (style : Style) (text : String) : String :=
  if painter.colour then
    String.ofList (style.set ++ style.restore text.toList ++ Style.reset)
  else text

/-- A text in a style, filled up with spaces to a width. -/
def paintColumn (painter : Painter) (style : Style) (width : Nat) (text : String) : String :=
  let spaces := String.ofList (List.replicate (width - text.length) ' ')
  painter.paint style (text ++ spaces)

end Painter

end SqlTemplate.CommandLine
