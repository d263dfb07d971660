import SqlTemplate.Proofs.Serving
import Mathlib.Data.List.Basic

/-!
Substitution without the cursor.

`Template.fill` replaces the markers of a template by given answers and is a plain function: no
cursor, no failure. `Template.asks_substitute` says that substituting is asking for the markers and
filling the answers in, and `compile_of_answers` and `compile_of_refuses` carry that over to
compiling. They are all that other modules need to know about how a template is run.

What a single request is answered with depends on the argument at its number alone
(`reply_lenient`, `reply_strict`): a missing argument is the skip sentinel, or with exact counts an
error.
-/

set_option autoImplicit false

namespace SqlTemplate

/-! ## Filling answers in -/

/-- The text of a piece, and whether it is a marker that took the skip sentinel; marker `k` gets
answer `k`. -/
def Piece.fill (answer : Nat → String × Bool) (k : Nat) : Piece → String × Bool
  | text content => (content, false)
  | marker _ => answer k

namespace Piece

/-- The markers of a piece: one or none. -/
def markers (p : Piece) : List Marker := p.marker?.toList

/-- Pieces in a row with their markers replaced, the first marker by answer `k`. -/
def fillAll (answer : Nat → String × Bool) (k : Nat) (pieces : List Piece) : List (String × Bool) :=
  mapFrom markers (fill answer) k pieces

@[simp] theorem fillAll_nil (answer : Nat → String × Bool) (k : Nat) :
    fillAll answer k [] = [] := rfl

@[simp] theorem fillAll_text (answer : Nat → String × Bool) (k : Nat) (content : String)
    (pieces : List Piece) :
    fillAll answer k (.text content :: pieces) = (content, false) :: fillAll answer k pieces := rfl

@[simp] theorem fillAll_marker (answer : Nat → String × Bool) (k : Nat) (m : Marker)
    (pieces : List Piece) :
    fillAll answer k (.marker m :: pieces) = answer k :: fillAll answer (k + 1) pieces := rfl

/-- The text of pieces in a row with their markers replaced. -/
def filledText (answer : Nat → String × Bool) (k : Nat) (pieces : List Piece) : String :=
  String.join ((fillAll answer k pieces).map Prod.fst)

/-- Whether one of the markers took the skip sentinel. -/
def filledSkip (answer : Nat → String × Bool) (k : Nat) (pieces : List Piece) : Bool :=
  (fillAll answer k pieces).any Prod.snd

end Piece

namespace Segment

/-- The markers of a segment. -/
def markers (s : Segment) : List Marker := s.placements.map Prod.fst

theorem markers_piece (p : Piece) : (piece p).markers = p.markers := by
  simp only [markers, placements, Piece.markers, List.map_map, Function.comp_def, List.map_id']

theorem markers_block (pieces : List Piece) :
    (block pieces).markers = pieces.flatMap Piece.markers := by
  simp only [markers, placements, List.map_map, Function.comp_def, List.map_id']
  exact List.filterMap_eq_flatMap_toList _ _

/-- A segment with its markers replaced, the first one by answer `k`. -/
def fill (answer : Nat → String × Bool) (k : Nat) : Segment → Rendered
  | piece p => .text (p.fill answer k).1
  | block pieces => .block (Piece.filledText answer k pieces) (Piece.filledSkip answer k pieces)

/-- Segments in a row with their markers replaced, the first one by answer `k`. -/
def fillAll (answer : Nat → String × Bool) (k : Nat) (segments : List Segment) : List Rendered :=
  mapFrom markers (fill answer) k segments

end Segment

namespace Template

/-- A template with its markers replaced by answers. -/
def fill (t : Template) (answer : Nat → String × Bool) : List Rendered :=
  Segment.fillAll answer 0 t.segments

/-- The markers of a template are those of its segments, in order. -/
theorem markers_eq_flatMap (t : Template) : t.markers = t.segments.flatMap Segment.markers := by
  rw [markers, placements, List.map_flatMap]
  rfl

end Template

/-! ## Rendering asks and fills -/

/-- Rendering a piece asks for its marker, if it has one. -/
theorem Piece.asks_render (escape : Escaper) (p : Piece) :
    Serving.Asks escape p.markers (fun answer k => p.fill answer k) (p.render escape) := by
  cases p with
  | text content => exact Serving.Asks.pure (content, false)
  | marker m => exact Serving.Asks.marker m

/-- Rendering a segment asks for its markers, in order. -/
theorem Segment.asks_render (escape : Escaper) (s : Segment) :
    Serving.Asks escape s.markers (fun answer k => s.fill answer k) (s.render escape) := by
  cases s with
  | piece p =>
    rw [markers_piece]
    exact (Piece.asks_render escape p).map fun filled => Rendered.text filled.1
  | block pieces =>
    rw [markers_block]
    exact (Serving.Asks.mapM (Piece.asks_render escape) pieces).map fun parts =>
      Rendered.block (String.join (parts.map Prod.fst)) (parts.any Prod.snd)

/-- **Substituting is asking for the markers in template order and filling the answers in.** -/
theorem Template.asks_substitute (escape : Escaper) (t : Template) :
    Serving.Asks escape t.markers (fun answer k => Segment.fillAll answer k t.segments)
      (t.substitute escape) := by
  rw [markers_eq_flatMap]
  exact Serving.Asks.mapM (Segment.asks_render escape) t.segments

/-! ## Compiling -/

namespace Template

variable {escape : Escaper} {options : Options} {t : Template} {arguments : List Value}

/-- With all markers answered only the count of the arguments can still fail. -/
theorem compile_of_answers {answer : Nat → String × Bool}
    (h : (Cursor.start arguments options.strict).Answers escape t.markers answer) :
    t.compile escape options arguments
      = if options.strict ∧ t.markers.length < arguments.length then
          .error (.tooManyArguments t.markers.length arguments.length)
        else .ok (Rendered.resolve options.elision (t.fill answer)) := by
  have hrun := (asks_substitute escape t).answered _ _ h
  rw [compile, hrun]
  simp only [fill, Cursor.start, Cursor.ahead, Cursor.finish, Nat.zero_add]
  split <;> rfl

/-- A marker without an answer fails the whole. -/
theorem compile_of_refuses {i : Nat} {e : Error}
    (h : (Cursor.start arguments options.strict).Refuses escape t.markers i e) :
    t.compile escape options arguments = .error e := by
  have hrun := (asks_substitute escape t).refused _ _ _ h
  rw [compile, hrun]
  rfl

/-- When every marker is answered, the template is filled and resolved. -/
theorem compile_lenient_of_answers (mode : ElisionMode) {answer : Nat → String × Bool}
    (h : (Cursor.start arguments false).Answers escape t.markers answer) :
    t.compile escape ⟨mode, false⟩ arguments = .ok (Rendered.resolve mode (t.fill answer)) := by
  have hcompile := @compile_of_answers escape ⟨mode, false⟩ t arguments answer h
  rw [hcompile, if_neg fun hstrict => absurd hstrict.1 Bool.false_ne_true]

/-- When a marker is refused, the template fails for the same reason. -/
theorem compile_lenient_of_refuses (mode : ElisionMode) {i : Nat} {e : Error}
    (h : (Cursor.start arguments false).Refuses escape t.markers i e) :
    t.compile escape ⟨mode, false⟩ arguments = .error e :=
  @compile_of_refuses escape ⟨mode, false⟩ t arguments i e h

/-- A success, with exact counts or without, has answered all markers and filled the answers in. -/
theorem exists_fill_of_compile {sql : String}
    (h : t.compile escape options arguments = .ok sql) :
    ∃ answer, (Cursor.start arguments options.strict).Answers escape t.markers answer
      ∧ sql = Rendered.resolve options.elision (t.fill answer) := by
  rcases Cursor.answers_or_refuses escape (Cursor.start arguments options.strict) t.markers with
    ⟨answer, hanswers⟩ | ⟨i, e, hrefuses⟩
  · refine ⟨answer, hanswers, ?_⟩
    rw [compile_of_answers hanswers] at h
    split at h
    · exact absurd h (by simp)
    · exact (Except.ok.inj h).symm
  · rw [compile_of_refuses hrefuses] at h
    exact absurd h (by simp)

end Template

/-! ## What a request is answered with -/

/-- The argument that request `k` gets when missing ones count as skipped. -/
def argumentAt (arguments : List Value) (k : Nat) : Value :=
  (arguments[k]?).getD .skip

namespace Cursor

variable {escape : Escaper} {arguments : List Value} {marker : Marker} {k : Nat}

/-- Within the arguments a marker gets the argument of its number. -/
theorem reply_of_lt {strict : Bool} (h : k < arguments.length) :
    ((start arguments strict).ahead k).reply escape marker
      = (marker.format escape (argumentAt arguments k)).map
          fun written => (written, (argumentAt arguments k).isSkip) := by
  apply reply_of_ok
  simp only [current, ahead, start, Nat.zero_add, argumentAt, List.getElem?_eq_getElem h,
    Option.getD_some]

/-- With lenient counts every marker gets the argument of its number, or null behind the last one.
-/
theorem reply_lenient (escape : Escaper) (arguments : List Value) (marker : Marker) (k : Nat) :
    ((start arguments false).ahead k).reply escape marker
      = (marker.format escape (argumentAt arguments k)).map
          fun written => (written, (argumentAt arguments k).isSkip) := by
  rcases Nat.lt_or_ge k arguments.length with hk | hk
  · exact reply_of_lt hk
  · apply reply_of_ok
    simp only [current, ahead, start, Nat.zero_add, argumentAt, List.getElem?_eq_none hk,
      Option.getD_none]
    rfl

/-- With exact counts there is no argument behind the last one. -/
theorem reply_strict_of_le (h : arguments.length ≤ k) :
    ((start arguments true).ahead k).reply escape marker = .error (.missingArgument (k + 1)) := by
  apply reply_of_error
  simp only [current, ahead, start, Nat.zero_add, List.getElem?_eq_none h]
  rfl

/-- Whichever way counts are taken, an answer is what the marker makes of the argument. -/
theorem eq_of_reply_ok {strict : Bool} {a : String × Bool}
    (h : ((start arguments strict).ahead k).reply escape marker = .ok a) :
    marker.format escape (argumentAt arguments k) = .ok a.1
      ∧ a.2 = (argumentAt arguments k).isSkip := by
  -- A missing argument counts as the skip sentinel, or is an error.
  have hformat : (marker.format escape (argumentAt arguments k)).map
      (fun written => (written, (argumentAt arguments k).isSkip)) = .ok a := by
    rcases Nat.lt_or_ge k arguments.length with hk | hk
    · rwa [reply_of_lt hk] at h
    · cases strict with
      | false => rwa [reply_lenient] at h
      | true =>
        rw [reply_strict_of_le hk] at h
        exact absurd h (by simp)
  cases hw : marker.format escape (argumentAt arguments k) with
  | error e =>
    rw [hw] at hformat
    exact absurd hformat (by simp [Except.map])
  | ok w =>
    rw [hw] at hformat
    obtain rfl : (w, (argumentAt arguments k).isSkip) = a := Except.ok.inj hformat
    exact ⟨rfl, rfl⟩

end Cursor

end SqlTemplate
