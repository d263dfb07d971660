import SqlTemplate.Proofs.Rewriting

/-!
Templates read apart at a seam.

A cut through a template text is a seam when no question mark at the end of the left part could take
its code from the right, and the last brace on the left and the first one on the right could not
make a block. Both conditions look at one character or brace on each side only, however far from
the cut that brace stands. At a seam the text is read as its two parts are (`atoms_append`), but for
a text that may run across it. So segments are compared after their texts are taken apart into
characters, which changes neither the markers (`markers_atoms`) nor what segments are resolved to
(`resolve_fillAll_atoms`).
-/

set_option autoImplicit false

namespace SqlTemplate

/-! ## Seams -/

/-- Nothing on the left reaches over the cut, unlike at a `Boundary` also where a question mark ends
the left part but finds no code on the right. -/
structure Seam (left right : List Char) : Prop where
  uncoded : left.getLast? = some '?' → Uncoded right
  settled : lastBrace left = some '{' → firstBrace right ≠ some '}'

/-- The last brace of two texts is that of the second, or else that of the first. -/
theorem lastBrace_append_or (l r : List Char) :
    lastBrace (l ++ r) = (lastBrace r).or (lastBrace l) := by
  unfold lastBrace
  rw [List.reverse_append, List.find?_append]

/-- The first brace of two texts is that of the first, or else that of the second. -/
theorem firstBrace_append_or (l r : List Char) :
    firstBrace (l ++ r) = (firstBrace l).or (firstBrace r) := by
  unfold firstBrace
  rw [List.find?_append]

/-- What is left of a left part still ends in a seam. -/
theorem Seam.of_append {front left right : List Char} (h : Seam (front ++ left) right) :
    Seam left right := by
  constructor
  · intro hlast
    apply h.uncoded
    rw [List.getLast?_append, hlast, Option.some_or]
  · intro hopen
    apply h.settled
    rw [lastBrace_append_or, hopen, Option.some_or]

/-! ## Segments without runs -/

namespace Segment

/-- The segment, or if it is a text its characters. -/
def atoms : Segment → List Segment
  | piece (.text content) => content.toList.map fun c => piece (.text (String.ofList [c]))
  | s => [s]

/-- A character more in front is one atom more, whether or not it begins a text. -/
theorem flatMap_atoms_plain {c : Char} (hc : isPlain c = true) (l : List Char) :
    (ofText (c :: l)).flatMap atoms
      = piece (.text (String.ofList [c])) :: (ofText l).flatMap atoms := by
  unfold ofText outlook
  rw [Token.scan_plain hc]
  have hrun : ∀ (ahead : Outlook) (content : List Char),
      (ahead.cons (.run content)).segments.flatMap atoms
        = content.map (fun d => piece (.text (String.ofList [d])))
          ++ ahead.segments.flatMap atoms := by
    intro ahead content
    have hsegments : (ahead.cons (.run content)).segments
        = piece (.text (String.ofList content)) :: ahead.segments := rfl
    rw [hsegments, List.flatMap_cons, atoms, String.toList_ofList]
  -- A run at the head takes the character in; else the character is a run by itself.
  cases Token.scan l with
  | nil => exact hrun _ [c]
  | cons token tokens =>
    cases token with
    | run content =>
      rw [Token.consPlain, List.foldr_cons, List.foldr_cons, hrun, hrun]
      rfl
    | marker m => exact hrun _ [c]
    | openBrace => exact hrun _ [c]
    | closeBrace => exact hrun _ [c]

/-- A stretch without braces ends in a seam if it does not end in a question mark that takes a code
from the right. -/
theorem flatMap_atoms_stretch {left right : List Char} (hleft : NoBrace left)
    (hcode : left.getLast? = some '?' → Uncoded right) :
    (ofText (left ++ right)).flatMap atoms
      = (ofText left).flatMap atoms ++ (ofText right).flatMap atoms := by
  have hlast : ∀ {c : Char} {l : List Char}, ((c :: l).getLast? = some '?' → Uncoded right) →
      l.getLast? = some '?' → Uncoded right := by
    intro c l h hl
    apply h
    rw [List.getLast?_cons, hl, Option.getD_some]
  induction left using text_induction with
  | nil => rfl
  | brace b l hb ih => exact absurd (hleft b List.mem_cons_self) (by rw [hb]; decide)
  | coded m l ih =>
    have htail := ih (noBrace_cons.mp (noBrace_cons.mp hleft).2).2 (hlast (hlast hcode))
    rw [List.cons_append, List.cons_append, ofText_coded, ofText_coded, List.flatMap_cons,
      List.flatMap_cons, htail, List.append_assoc]
  | bare l hl ih =>
    have htail := ih (noBrace_cons.mp hleft).2 (hlast hcode)
    -- If nothing follows on the left, the code could only come from the right.
    have hnext : Uncoded (l ++ right) := by
      cases l with
      | nil => exact hcode rfl
      | cons c l => exact hl
    rw [List.cons_append, ofText_bare hnext, ofText_bare hl, List.flatMap_cons, List.flatMap_cons,
      htail, List.append_assoc]
  | plain c l hc ih =>
    have htail := ih (noBrace_cons.mp hleft).2 (hlast hcode)
    rw [List.cons_append, flatMap_atoms_plain hc, flatMap_atoms_plain hc, htail, List.cons_append]

/-- **At a seam a text is read as its parts are.** The induction is on the layout of the left part.
A stray opening brace there stays one: the brace that could close it would be the first on the
right, and then it would be the last on the left. -/
theorem atoms_append {left right : List Char} (h : Seam left right) :
    (ofText (left ++ right)).flatMap atoms
      = (ofText left).flatMap atoms ++ (ofText right).flatMap atoms := by
  induction Layout.of left with
  | plain hl => exact flatMap_atoms_stretch hl h.uncoded
  | @closing l r hl hr ih =>
    rw [List.append_cons] at h
    rw [List.append_assoc, List.cons_append, ofText_closing hl, ofText_closing hl,
      List.flatMap_append, List.flatMap_append, List.flatMap_cons, List.flatMap_cons,
      ih h.of_append, List.append_assoc, List.append_assoc]
  | @opening l r hl hopen hr ih =>
    have hstray : firstBrace (r ++ right) ≠ some '}' := by
      rw [firstBrace_append_or]
      -- The brace behind the stray one is on the right, or on the left as before.
      rcases noBrace_or_cut r with hr | ⟨l', b, r', rfl, hl', hb⟩
      · have hlast : lastBrace (l ++ '{' :: r) = some '{' := lastBrace_append_cons rfl hr l
        rw [firstBrace_of_noBrace hr, Option.none_or]
        exact h.settled hlast
      · rw [firstBrace_append hl', firstBrace_cons_of_isBrace hb] at hopen ⊢
        exact hopen
    rw [List.append_cons] at h
    rw [List.append_assoc, List.cons_append, ofText_opening hl hstray, ofText_opening hl hopen,
      List.flatMap_append, List.flatMap_append, List.flatMap_cons, List.flatMap_cons,
      ih h.of_append, List.append_assoc, List.append_assoc]
  | @block l body r hl hbody hr ih =>
    have hsplit : Seam ((l ++ '{' :: (body ++ ['}'])) ++ r) right := by simpa using h
    rw [List.append_assoc, List.cons_append, List.append_assoc, List.cons_append,
      ofText_block hl hbody, ofText_block hl hbody, List.flatMap_append, List.flatMap_append,
      List.flatMap_cons, List.flatMap_cons, ih hsplit.of_append, List.append_assoc,
      List.append_assoc]

/-! ## What does not depend on runs -/

/-- Cutting text pieces into characters leaves the markers alone. -/
theorem markers_atoms (segments : List Segment) :
    (segments.flatMap atoms).flatMap markers = segments.flatMap markers := by
  rw [List.flatMap_assoc]
  apply List.flatMap_congr
  intro s _
  unfold atoms
  split
  · rw [List.flatMap_map]
    exact List.flatMap_eq_nil_iff.mpr fun _ _ => rfl
  · exact List.flatMap_singleton _ _

section

variable (mode : ElisionMode) (answer : Nat → String × Bool) (k : Nat)

/-- The first segment is resolved by itself, and the others with the answers behind its own. -/
theorem resolve_fillAll_cons (s : Segment) (segments : List Segment) :
    Rendered.resolve mode (fillAll answer k (s :: segments))
      = (s.fill answer k).kept mode
        ++ Rendered.resolve mode (fillAll answer (k + s.markers.length) segments) :=
  String.join_cons

/-- Two lists of segments are resolved one behind the other. -/
theorem resolve_fillAll_segments_append (segments later : List Segment) :
    Rendered.resolve mode (fillAll answer k (segments ++ later))
      = Rendered.resolve mode (fillAll answer k segments)
        ++ Rendered.resolve mode
            (fillAll answer (k + (segments.flatMap markers).length) later) := by
  unfold fillAll Rendered.resolve
  rw [mapFrom_append, List.map_append, String.join_append]

/-- Characters as pieces of their own are resolved to their text. -/
theorem resolve_fillAll_chars (content : List Char) :
    Rendered.resolve mode
        (fillAll answer k (content.map fun c => piece (.text (String.ofList [c]))))
      = String.ofList content := by
  induction content with
  | nil => rfl
  | cons c content ih =>
    rw [List.map_cons, resolve_fillAll_text, ih, ← String.ofList_append, List.singleton_append]

/-- Cutting text pieces into characters leaves what is resolved alone. -/
theorem resolve_fillAll_atoms (segments : List Segment) :
    Rendered.resolve mode (fillAll answer k (segments.flatMap atoms))
      = Rendered.resolve mode (fillAll answer k segments) := by
  induction segments generalizing k with
  | nil => rfl
  | cons s segments ih =>
    have hmarkers : s.atoms.flatMap markers = s.markers := by
      have h := markers_atoms [s]
      rwa [List.flatMap_singleton, List.flatMap_singleton] at h
    -- One segment at a time; only a text piece is cut up.
    have hsegment : Rendered.resolve mode (fillAll answer k s.atoms)
        = (s.fill answer k).kept mode := by
      unfold atoms
      split
      · rw [resolve_fillAll_chars, String.ofList_toList]
        rfl
      · rw [resolve_fillAll_cons]
        exact String.append_empty
    rw [List.flatMap_cons, resolve_fillAll_segments_append, hmarkers, hsegment, ih,
      resolve_fillAll_cons]

end

end Segment

/-! ## Parsed templates -/

namespace Template

variable {left right : String}

/-- Across a seam, the markers of both texts come one behind the other. -/
theorem markers_parse_append (h : Seam left.toList right.toList) :
    (parse (left ++ right)).markers = (parse left).markers ++ (parse right).markers := by
  rw [markers_eq_flatMap, markers_eq_flatMap, markers_eq_flatMap, Segment.segments_parse,
    Segment.segments_parse, Segment.segments_parse, String.toList_append, ← Segment.markers_atoms,
    Segment.atoms_append h, List.flatMap_append, Segment.markers_atoms, Segment.markers_atoms]

/-- With the markers answered, a text is resolved at a seam as its parts are; the right part goes on
with the answers where the left part stops. -/
theorem resolve_fill_parse_append (mode : ElisionMode) (answer : Nat → String × Bool)
    (h : Seam left.toList right.toList) :
    Rendered.resolve mode ((parse (left ++ right)).fill answer)
      = Rendered.resolve mode ((parse left).fill answer)
        ++ Rendered.resolve mode
            (Segment.fillAll answer (parse left).markers.length (parse right).segments) := by
  unfold fill
  rw [markers_eq_flatMap, Segment.segments_parse, Segment.segments_parse, Segment.segments_parse,
    String.toList_append, ← Segment.resolve_fillAll_atoms, Segment.atoms_append h,
    Segment.resolve_fillAll_segments_append, Segment.resolve_fillAll_atoms,
    Segment.resolve_fillAll_atoms, Segment.markers_atoms, Nat.zero_add]

end Template

end SqlTemplate
