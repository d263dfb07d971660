import SqlTemplate.Template.Marker

/-!
Templates as data: pieces, segments and the template that holds them.

A template is a list of segments. A segment is a piece or a block; a block is a span between
braces that may be dropped as a whole, and it holds pieces only. The markers of a template, read
from left to right, are the order in which it takes its arguments.
-/

set_option autoImplicit false

namespace SqlTemplate

/-- The smallest part of a template: literal text, or a marker. -/
inductive Piece where
  | text (content : String)
  | marker (marker : Marker)
  deriving DecidableEq, Repr

/-- One element of a template: a piece, or an optional block of pieces. -/
inductive Segment where
  | piece (piece : Piece)
  | block (pieces : List Piece)
  deriving DecidableEq, Repr

/-- A template: its text, and the segments that the text was split into. -/
structure Template where
  source : String
  segments : List Segment
  deriving DecidableEq, Repr

namespace Piece

/-- The marker of a piece, if it is one. -/
def marker? : Piece → Option Marker
  | text _ => none
  | marker m => some m

/-- A piece in template spelling; a marker always shows its code. -/
def written : Piece → String
  | text content => content
  | marker m => m.text

end Piece

namespace Segment

/-- The markers of a segment, each with the answer to "is it inside a block?". -/
def placements : Segment → List (Marker × Bool)
  | piece p => p.marker?.toList.map fun m => (m, false)
  | block pieces => (pieces.filterMap Piece.marker?).map fun m => (m, true)

/-- The pieces of a block; none for a segment that is no block. -/
def block? : Segment → Option (List Piece)
  | piece _ => none
  | block pieces => some pieces

end Segment

namespace Template

/-- All markers in argument order, each with the answer to "is it inside a block?". -/
def placements (template : Template) : List (Marker × Bool) :=
  template.segments.flatMap Segment.placements

/-- All markers in argument order. -/
def markers (template : Template) : List Marker :=
  template.placements.map Prod.fst

/-- How many arguments the template takes. -/
def placeholderCount (template : Template) : Nat :=
  template.markers.length

/-- The optional blocks, in template order. -/
def blocks (template : Template) : List (List Piece) :=
  template.segments.filterMap Segment.block?

end Template

end SqlTemplate
