import SqlTemplate.CommandLine.Style
import SqlTemplate.Template.Parse

/-!
What the program prints about itself and about templates.

A report is a list of lines. `explain` lists the placeholders of a template in the order in which
they take arguments, and its optional blocks in template spelling; `markers` lists what can stand
in a template.
-/

set_option autoImplicit false

namespace SqlTemplate.CommandLine

/-- The name and version of the program. -/
def versionLine : String := "qtpl 0.1.0"

/-- The options and commands of the program. -/
def helpLines : List String :=
  ["Compile typed SQL query templates into literal SQL",
   "",
   "Usage: qtpl [OPTIONS] [TEMPLATE] [COMMAND]",
   "",
   "Commands:",
   "  explain  Show the placeholders and blocks of a template",
   "  markers  Show the placeholder reference",
   "",
   "Options:",
   "  -a, --arg <ARGS>             Positional argument (JSON if it parses as JSON, else text; "
     ++ "@skip to skip)",
   "      --args-json <ARGS_JSON>  All positional arguments as one JSON array (replaces --arg)",
   "      --escaping <ESCAPING>    String escaping rules: mysql, mysql-no-backslash or standard",
   "      --elision <ELISION>      How conditional blocks are elided: structural or textual",
   "      --strict                 Fail when argument and placeholder counts differ",
   "  -c, --config <CONFIG>        Config file (default: ./qtpl.toml, then the user config dir)",
   "  -v, --verbose                Verbose output",
   "  -h, --help                   Print help",
   "  -V, --version                Print version"]

/-- A count at the left of three places. -/
def placeholderNumber (n : Nat) : String :=
  let written := toString n
  written ++ String.ofList (List.replicate (3 - written.length) ' ')

/-- What can stand in a template, what it takes and what it becomes. -/
def reference : List (String × String × String × String) :=
  [("?", "String", "Escaped scalar", "'text', 12, NULL, 1"),
   ("?s", "String", "Same as ?", "'text'"),
   ("?d", "Integer", "Truncated integer", "42"),
   ("?f", "Float", "Shortest float", "3.14"),
   ("?a", "Array", "List or key = value list", "1, 2 / `k` = 'v'"),
   ("?#", "Identifier", "Backtick-quoted names", "`id`, `name`"),
   ("\x7b...\x7d", "Block", "Dropped when an arg is skipped", "")]

namespace Painter

variable (painter : Painter)

/-- What is printed when there is nothing to do. -/
def banner : List String :=
  [painter.paint .title "qtpl — typed SQL query templates",
   "",
   "Usage: qtpl <TEMPLATE> [--arg VALUE]...",
   "",
   "Try: qtpl --help"]

/-- The line that shows a template. -/
def templateLine (source : String) : String :=
  painter.paint .faint "Template:" ++ " " ++ painter.paint .template source

/-- The line of one placeholder. -/
def placeholderLine (n : Nat) (placement : Marker × Bool) : String :=
  let line := "  #" ++ placeholderNumber n ++ " " ++ painter.paint .name placement.1.text
  if placement.2 then line ++ " " ++ painter.paint .faint "(in block)" else line

/-- The line of one block. -/
def blockLine (pieces : List Piece) : String :=
  "  \x7b" ++ painter.paint .plain (String.join (pieces.map Piece.written)) ++ "\x7d"

/-- Lines, or a remark that there are none. -/
def orNone (lines : List String) : List String :=
  if lines.isEmpty then ["  " ++ painter.paint .faint "(none)"] else lines

/-- The placeholders and blocks of a template. -/
def explain (source : String) : List String :=
  let template := Template.parse source
  let placements := template.placements
  [painter.paint .title "qtpl Template Explanation", "", painter.templateLine source, "",
   painter.paint .heading "Placeholders:"]
  ++ painter.orNone (placements.mapIdx fun i placement => painter.placeholderLine (i + 1) placement)
  ++ ["", painter.paint .heading "Conditional blocks:"]
  ++ painter.orNone (template.blocks.map painter.blockLine)
  ++ ["", painter.paint .name (toString placements.length) ++ " argument(s) expected"]

/-- A line of the reference: four columns, the last of them not filled up. -/
def referenceLine (styles : Style × Style × Style × Style)
    (texts : String × String × String × String) : String :=
  painter.paintColumn styles.1 8 texts.1 ++ " "
    ++ painter.paintColumn styles.2.1 12 texts.2.1 ++ " "
    ++ painter.paintColumn styles.2.2.1 32 texts.2.2.1 ++ " "
    ++ painter.paint styles.2.2.2 texts.2.2.2

/-- The placeholder reference. -/
def markers : List String :=
  [painter.paint .title "qtpl Placeholder Reference", "",
   painter.referenceLine (.column, .column, .column, .column)
     ("Marker", "Type", "Function", "SQL Output"),
   painter.paint .faint (String.ofList (List.replicate 80 '─'))]
  ++ reference.map (painter.referenceLine (.title, .template, .plain, .faint))

end Painter

end SqlTemplate.CommandLine
