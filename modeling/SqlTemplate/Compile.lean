import SqlTemplate.Arguments
import SqlTemplate.Elision
import SqlTemplate.Format
import SqlTemplate.Template.Parse

/-!
Compiling a template and its arguments into one SQL text.

Compiling goes over the template once, from left to right. Every marker takes the next argument and
is replaced by its text; text from arguments is never looked at again for markers or braces. Then
each optional block is kept without its braces, or dropped.
-/

set_option autoImplicit false

namespace SqlTemplate

/-- The switches of compilation. -/
structure Options where
  elision : ElisionMode := .structural
  /-- Whether there must be exactly as many arguments as placeholders. -/
  strict : Bool := false
  deriving DecidableEq, Repr, Inhabited

/-- The text of a piece, and whether it took the skip sentinel. -/
def Piece.render (escape : Escaper) : Piece → Serving (String × Bool)
  | text content => pure (content, false)
  | marker m => do
    let value ← Serving.next
    let written ← Serving.ofResult (m.format escape value)
    return (written, value.isSkip)

/-- A segment with its markers replaced. -/
def Segment.render (escape : Escaper) : Segment → Serving Rendered
  | piece p => do
    let (content, _) ← p.render escape
    return .text content
  | block pieces => do
    let parts ← pieces.mapM (Piece.render escape)
    return .block (String.join (parts.map Prod.fst)) (parts.any Prod.snd)

namespace Template

/-- A template with its markers replaced, one rendered segment for each of its own. -/
def substitute (escape : Escaper) (template : Template) : Serving (List Rendered) :=
  template.segments.mapM (Segment.render escape)

/-- The SQL of a template and its arguments. -/
def compile (escape : Escaper) (options : Options) (template : Template) (arguments : List Value) :
    Except Error String := do
  let (outcome, cursor) := (template.substitute escape).outcome (.start arguments options.strict)
  let rendered ← outcome
  cursor.finish
  return Rendered.resolve options.elision rendered

end Template

/-- The SQL of a template text and its arguments. -/
def compile (escape : Escaper) (options : Options) (source : String) (arguments : List Value) :
    Except Error String :=
  (Template.parse source).compile escape options arguments

end SqlTemplate
