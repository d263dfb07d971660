import SqlTemplate.Proofs.Template.OrderedChoice
import SqlTemplate.Proofs.Template.Places

/-!
The markers and blocks of a parsed template are the question marks and flat spans of its text.

Both facts are inductions over the layout of the text to the right of a boundary: a cut that no
question mark and no open block on the left reaches over. The text as a whole stays in view, since
the nearest brace on the left belongs to what was read before. `parse_places` puts them together
with the reading by ordered choice.
-/

set_option autoImplicit false

namespace SqlTemplate

/-! ## Boundaries -/

/-- A cut that nothing on the left reaches over: no question mark that would take a code from the
right, and no opening brace that the right would close. -/
structure Boundary (pre suf : List Char) : Prop where
  unmarked : pre.getLast? ≠ some '?'
  settled : lastBrace pre = some '{' → firstBrace suf ≠ some '}'

namespace Boundary

/-- The beginning of a text is a boundary. -/
theorem start (suf : List Char) : Boundary [] suf :=
  ⟨by simp, fun h => absurd h (by simp [lastBrace])⟩

/-- The place behind a closing brace is a boundary. -/
theorem closing (pre suf : List Char) : Boundary (pre ++ ['}']) suf := by
  refine ⟨by simp, fun h => ?_⟩
  rw [lastBrace_append_cons rfl noBrace_nil] at h
  exact absurd h (by simp)

/-- The place behind an opening brace is a boundary, if the next brace does not close it. -/
theorem opening (pre : List Char) {suf : List Char} (h : firstBrace suf ≠ some '}') :
    Boundary (pre ++ ['{']) suf :=
  ⟨by simp, fun _ => h⟩

end Boundary

theorem uncoded_nil : Uncoded [] := fun _ h => by simp at h

/-- A brace is no type code. -/
theorem uncoded_of_isBrace {b : Char} (hb : isBrace b = true) (r : List Char) : Uncoded (b :: r) :=
  fun c hc => by
    rw [← Option.some.inj hc]
    exact ofChar?_of_isBrace hb

/-! ## Markers -/

/-- The marker at a position, with the answer to "is it inside a block?"; none where no question
mark stands. -/
def placeAt (text : List Char) (i : Nat) : List (Marker × Bool) :=
  readAt (fun _ m => [(m, isInside text i)]) (fun _ => []) text i

/-- Where there is no question mark, no marker is placed. -/
theorem placeAt_of_ne_mark {text : List Char} {i : Nat} (h : text[i]? ≠ some '?') :
    placeAt text i = [] := by
  rcases readAt_of_ne_mark (fun _ m => [(m, isInside text i)]) (fun _ => []) h with h | ⟨_, _, h⟩
  · exact h
  · exact h

/-- The markers with their places, position by position. -/
theorem map_markPositions (text : List Char) :
    (markPositions text).map (fun i => (markerAt text i, isInside text i))
      = (List.range text.length).flatMap (placeAt text) := by
  rw [markPositions]
  induction List.range text.length with
  | nil => rfl
  | cons i rest ih =>
    rw [List.filter_cons, List.flatMap_cons]
    by_cases hi : text[i]? = some '?'
    · rw [if_pos (beq_iff_eq.mpr hi), List.map_cons, ih, placeAt, readAt_of_mark _ _ hi,
        List.singleton_append]
    · rw [if_neg (mt beq_iff_eq.mp hi), ih, placeAt_of_ne_mark hi, List.nil_append]

/-- A brace places no marker. -/
theorem placeAt_of_isBrace {b : Char} (hb : isBrace b = true) (pre post : List Char) :
    placeAt (pre ++ b :: post) pre.length = [] :=
  placeAt_of_ne_mark fun h =>
    ne_mark_of_isBrace hb (Option.some.inj ((getElem?_cut _ _ _).symm.trans h))

/-- What only markers contribute is read off the markers of the pieces. -/
theorem Piece.readAll_markers {β : Type} (f : Marker → β) (k : Nat) (pieces : List Piece) :
    readAll (fun _ m => [f m]) (fun _ => []) k pieces = (pieces.filterMap marker?).map f := by
  induction pieces generalizing k with
  | nil => rfl
  | cons p pieces ih =>
    cases p with
    | text content => simp [readAll_text, ih, List.filterMap_cons, marker?]
    | marker m => simp [readAll_marker, ih, marker?]

/-- A stretch without braces holds the markers of its pieces, all inside a block or all outside. -/
theorem flatMap_placeAt {pre l post : List Char} (hl : NoBrace l) (hpost : Uncoded post)
    (hpre : pre.getLast? ≠ some '?') :
    (List.range' pre.length l.length).flatMap (placeAt (pre ++ (l ++ post)))
      = ((Piece.ofText l).filterMap Piece.marker?).map fun m =>
          (m, lastBrace pre == some '{' && firstBrace post == some '}') := by
  rw [← Piece.readAll_markers _ (pre.count '?'), ← flatMap_readAt _ _ (Piece.spelling_ofText hl) pre
    hpost fun h => absurd h hpre]
  apply List.flatMap_congr
  intro i hi
  obtain ⟨hge, hlt⟩ := List.mem_range'_1.mp hi
  rw [placeAt, isInside_stretch hl hge hlt]

/-- The positions around a brace: those before it, its own, and those behind it. -/
theorem flatMap_range'_brace {β : Type} (f : Nat → List β) (pre l : List Char) (b : Char)
    (r : List Char) :
    (List.range' pre.length (l ++ b :: r).length).flatMap f
      = (List.range' pre.length l.length).flatMap f
        ++ (f (pre ++ l).length ++ (List.range' (pre ++ l ++ [b]).length r.length).flatMap f) := by
  rw [← flatMap_range'_cons, List.length_append, List.length_append, ← List.range'_append_1,
    List.flatMap_append]

/-- Pieces outside of blocks place their markers outside. -/
theorem flatMap_placements_pieces (pieces : List Piece) :
    (pieces.map Segment.piece).flatMap Segment.placements
      = (pieces.filterMap Piece.marker?).map fun m => (m, false) := by
  induction pieces with
  | nil => rfl
  | cons p pieces ih =>
    cases p <;> simp [Segment.placements, List.filterMap_cons, Piece.marker?, ih]

/-- **The markers to the right of a boundary.** -/
theorem flatMap_placements {suf : List Char} (h : Layout suf) (text pre : List Char)
    (htext : text = pre ++ suf) (hb : Boundary pre suf) :
    (List.range' pre.length suf.length).flatMap (placeAt text)
      = (Segment.ofText suf).flatMap Segment.placements := by
  induction h generalizing pre with
  | @plain l hl =>
    have hstretch := flatMap_placeAt hl uncoded_nil hb.unmarked
    rw [List.append_nil, ← htext] at hstretch
    rw [hstretch, Segment.ofText_plain hl, flatMap_placements_pieces]
    simp [firstBrace]
  | @closing l r hl hr ih =>
    -- Nothing is open to the left, or the boundary would not be settled.
    have hunsettled : lastBrace pre ≠ some '{' := fun hopen =>
      hb.settled hopen (by rw [firstBrace_append hl, firstBrace_cons_of_isBrace rfl])
    have hstretch := flatMap_placeAt hl (uncoded_of_isBrace (b := '}') rfl r) hb.unmarked
    have hbrace := placeAt_of_isBrace (b := '}') rfl (pre ++ l) r
    have htail := ih (pre ++ l ++ ['}']) (by simp [htext]) (Boundary.closing _ r)
    rw [← htext] at hstretch
    rw [List.append_assoc, ← htext] at hbrace
    rw [flatMap_range'_brace, htail, hstretch, hbrace, Segment.ofText_closing hl]
    simp [flatMap_placements_pieces, hunsettled, Segment.placements, Piece.marker?]
  | @opening l r hl hopen hr ih =>
    have hstretch := flatMap_placeAt hl (uncoded_of_isBrace (b := '{') rfl r) hb.unmarked
    have hbrace := placeAt_of_isBrace (b := '{') rfl (pre ++ l) r
    have htail := ih (pre ++ l ++ ['{']) (by simp [htext]) (Boundary.opening _ hopen)
    rw [← htext] at hstretch
    rw [List.append_assoc, ← htext] at hbrace
    rw [flatMap_range'_brace, htail, hstretch, hbrace, Segment.ofText_opening hl hopen]
    simp [flatMap_placements_pieces, firstBrace_cons_of_isBrace, isBrace, Segment.placements,
      Piece.marker?]
  | @block l body r hl hbody hr ih =>
    -- The text is cut in five: a stretch, the brace, the content, the brace, and the rest.
    have hinside : text = (pre ++ l ++ ['{']) ++ (body ++ '}' :: r) := by simp [htext]
    have hafter : text = (pre ++ l ++ ['{'] ++ body) ++ '}' :: r := by simp [htext]
    have hstretch :=
      flatMap_placeAt hl (uncoded_of_isBrace (b := '{') rfl (body ++ '}' :: r)) hb.unmarked
    have hopening := placeAt_of_isBrace (b := '{') rfl (pre ++ l) (body ++ '}' :: r)
    have hinner := flatMap_placeAt hbody (uncoded_of_isBrace (b := '}') rfl r)
      (show (pre ++ l ++ ['{']).getLast? ≠ some '?' by simp)
    have hclosing := placeAt_of_isBrace (b := '}') rfl (pre ++ l ++ ['{'] ++ body) r
    have htail := ih (pre ++ l ++ ['{'] ++ body ++ ['}']) (by simp [htext]) (Boundary.closing _ r)
    rw [← htext] at hstretch
    rw [List.append_assoc, ← htext] at hopening
    rw [← hinside] at hinner
    rw [← hafter] at hclosing
    rw [flatMap_range'_brace, flatMap_range'_brace, htail, hstretch, hopening, hinner, hclosing,
      Segment.ofText_block hl hbody, lastBrace_append_cons rfl noBrace_nil,
      firstBrace_cons_of_isBrace rfl, firstBrace_cons_of_isBrace rfl]
    simp [flatMap_placements_pieces, Segment.placements]

/-! ## Blocks -/

/-- The spans to the right of a position, in order, and nothing else. -/
structure SpansFrom (text : List Char) (start : Nat) (spans : List (Nat × Nat)) : Prop where
  ordered : spans.Pairwise fun s t => s.1 < t.1
  mem_iff : ∀ a b, (a, b) ∈ spans ↔ start ≤ a ∧ FlatSpan text a b

/-- No flat span begins in a stretch without braces, nor at a brace after it that the next brace
does not close. -/
theorem SpansFrom.of_brace {text pre l r : List Char} {b : Char} {spans : List (Nat × Nat)}
    (htext : text = pre ++ (l ++ b :: r)) (hl : NoBrace l)
    (hb : b = '{' → firstBrace r ≠ some '}')
    (h : SpansFrom text (pre ++ l ++ [b]).length spans) : SpansFrom text pre.length spans := by
  refine ⟨h.ordered, fun a c => (h.mem_iff a c).trans (and_congr_left fun hspan => ?_)⟩
  rw [List.length_append, List.length_append, List.length_singleton]
  refine ⟨fun _ => by omega, fun hpre => ?_⟩
  have hopens := hspan.opens
  have hafter := hspan.braceAfter_eq
  rw [htext] at hopens hafter
  have hge := le_of_isBrace rfl hl hpre hopens
  refine Nat.lt_of_le_of_ne hge fun heq => ?_
  -- At the brace itself the span would make it an opening one that the next brace closes.
  rw [← List.length_append] at heq
  rw [← heq, ← List.append_assoc] at hopens hafter
  rw [getElem?_cut] at hopens
  rw [braceAfter_cut] at hafter
  exact hb (Option.some.inj hopens) hafter

/-- A flat span after a stretch without braces is the first one from there on. -/
theorem SpansFrom.cons {text pre l body r : List Char} {spans : List (Nat × Nat)}
    (htext : text = pre ++ (l ++ '{' :: (body ++ '}' :: r))) (hl : NoBrace l)
    (hspan : FlatSpan text (pre ++ l).length ((pre ++ l).length + 1 + body.length))
    (h : SpansFrom text (pre ++ l ++ ['{']).length spans) :
    SpansFrom text pre.length
      (((pre ++ l).length, (pre ++ l).length + 1 + body.length) :: spans) := by
  have hlen : (pre ++ l ++ ['{']).length = (pre ++ l).length + 1 := List.length_append
  rw [hlen] at h
  refine ⟨List.pairwise_cons.mpr ⟨fun s hs => ((h.mem_iff s.1 s.2).mp hs).1, h.ordered⟩, ?_⟩
  intro a b
  rw [List.mem_cons, Prod.mk.injEq, h.mem_iff]
  constructor
  · rintro (⟨rfl, rfl⟩ | ⟨hge, hab⟩)
    · exact ⟨by rw [List.length_append]; omega, hspan⟩
    · exact ⟨by rw [List.length_append] at hge; omega, hab⟩
  -- No brace stands before the span, and another span with this brace is the same one.
  · rintro ⟨hge, hab⟩
    have hopens := hab.opens
    rw [htext] at hopens
    have hle := le_of_isBrace rfl hl hge hopens
    rw [← List.length_append] at hle
    rcases Nat.eq_or_lt_of_le hle with rfl | hlt
    · left
      exact hab.eq_of_covers hspan (Nat.le_refl _) (Nat.le_of_lt hab.lt) (Nat.le_refl _)
        (Nat.le_of_lt hspan.lt)
    · exact Or.inr ⟨hlt, hab⟩

/-- Pieces outside of blocks are no blocks. -/
theorem filterMap_block?_pieces (pieces : List Piece) :
    (pieces.map Segment.piece).filterMap Segment.block? = [] := by
  rw [List.filterMap_map]
  exact List.filterMap_eq_nil_iff.mpr fun _ _ => rfl

/-- **The blocks to the right of a position are the flat spans there.** -/
theorem forall₂_blocks {suf : List Char} (h : Layout suf) (text pre : List Char)
    (htext : text = pre ++ suf) :
    ∃ spans, SpansFrom text pre.length spans
      ∧ List.Forall₂ (fun pieces span => Piece.Spelling pieces (textBetween text span.1 span.2))
          ((Segment.ofText suf).filterMap Segment.block?) spans := by
  induction h generalizing pre with
  | @plain l hl =>
    refine ⟨[], ⟨List.Pairwise.nil, fun a b => ⟨fun h => absurd h List.not_mem_nil, ?_⟩⟩, ?_⟩
    · rintro ⟨hpre, hspan⟩
      have hopens := hspan.opens
      rw [htext, ← List.append_nil l] at hopens
      have hlen := (List.getElem?_eq_some_iff.mp hopens).1
      have hge := le_of_isBrace rfl hl hpre hopens
      rw [List.append_nil, List.length_append] at hlen
      omega
    · rw [Segment.ofText_plain hl, filterMap_block?_pieces]
      exact List.Forall₂.nil
  | @closing l r hl hr ih =>
    obtain ⟨spans, hspans, hblocks⟩ := ih (pre ++ l ++ ['}']) (by simp [htext])
    refine ⟨spans, hspans.of_brace htext hl (fun h => absurd h (by decide)), ?_⟩
    rw [Segment.ofText_closing hl, List.filterMap_append, filterMap_block?_pieces]
    exact hblocks
  | @opening l r hl hopen hr ih =>
    obtain ⟨spans, hspans, hblocks⟩ := ih (pre ++ l ++ ['{']) (by simp [htext])
    refine ⟨spans, hspans.of_brace htext hl (fun _ => hopen), ?_⟩
    rw [Segment.ofText_opening hl hopen, List.filterMap_append, filterMap_block?_pieces]
    exact hblocks
  | @block l body r hl hbody hr ih =>
    have hinside : text = (pre ++ l ++ ['{']) ++ (body ++ '}' :: r) := by simp [htext]
    have hspan : FlatSpan text (pre ++ l).length ((pre ++ l).length + 1 + body.length) := by
      have := flatSpan_cut hbody (pre ++ l) r
      rwa [List.append_assoc, ← htext] at this
    have hbetween : textBetween text (pre ++ l).length ((pre ++ l).length + 1 + body.length)
        = body := by
      have := @textBetween_cut body (pre ++ l) r
      rwa [List.append_assoc, ← htext] at this
    obtain ⟨spans, hspans, hblocks⟩ := ih (pre ++ l ++ ['{'] ++ body ++ ['}']) (by simp [htext])
    -- No span begins in the content or at the closing brace, so this one comes before all others.
    have hrest := hspans.of_brace hinside hbody fun h => absurd h (by decide)
    refine ⟨_, hrest.cons htext hl hspan, ?_⟩
    rw [Segment.ofText_block hl hbody, List.filterMap_append, filterMap_block?_pieces]
    refine List.Forall₂.cons ?_ hblocks
    rw [hbetween]
    exact Piece.spelling_ofText hbody

/-! ## Parsed templates -/

/-- **The markers of a template are its question marks, each inside or outside of a block.** -/
theorem placements_parse (source : String) :
    (Template.parse source).placements
      = (markPositions source.toList).map fun i =>
          (markerAt source.toList i, isInside source.toList i) := by
  have h := flatMap_placements (Layout.of source.toList) source.toList [] rfl (Boundary.start _)
  rw [map_markPositions, List.range_eq_range', Template.placements, Segment.segments_parse, ← h]
  rfl

/-- There is one position for each question mark. -/
theorem length_markPositions (text : List Char) : (markPositions text).length = text.count '?' := by
  have hmap : (List.range text.length).map (fun i => text[i]?) = text.map some := by
    refine List.ext_getElem (by simp) fun i hi hi' => ?_
    rw [List.length_map, List.length_range] at hi
    rw [List.getElem_map, List.getElem_map, List.getElem_range, List.getElem?_eq_getElem hi]
  have hcount := congrArg (List.countP (· == some '?')) hmap
  rw [List.countP_map, List.countP_map] at hcount
  rw [markPositions, ← List.countP_eq_length_filter, List.count]
  exact hcount

/-- The question mark with number `k` is the one with `k` question marks before it. -/
theorem getElem?_markPositions {text : List Char} {k i : Nat} :
    (markPositions text)[k]? = some i ↔ text[i]? = some '?' ∧ marksBefore text i = k := by
  have hplace : ∀ {i}, text[i]? = some '?' →
      (markPositions text)[marksBefore text i]? = some i := by
    intro i hi
    have hlt : i < text.length := (List.getElem?_eq_some_iff.mp hi).1
    have hbefore : (List.range i).filter (fun j => text[j]? == some '?')
        = markPositions (text.take i) := by
      rw [markPositions, List.length_take, Nat.min_eq_left (Nat.le_of_lt hlt)]
      apply List.filter_congr
      intro j hj
      rw [List.getElem?_take_of_lt (List.mem_range.mp hj)]
    have hsplit : List.range text.length
        = List.range i ++ i :: List.range' (i + 1) (text.length - (i + 1)) := by
      rw [← List.range'_succ, List.range_eq_range', List.range_eq_range',
        show text.length - (i + 1) + 1 = text.length - i by omega]
      conv => lhs; rw [← Nat.add_sub_cancel' (Nat.le_of_lt hlt), ← List.range'_append_1]
      rw [Nat.zero_add]
    -- The question marks before position `i` are those of the text before it.
    rw [markPositions, hsplit, List.filter_append, List.filter_cons, if_pos (by simp [hi]), hbefore,
      marksBefore, ← length_markPositions, List.getElem?_append_right (Nat.le_refl _), Nat.sub_self]
    rfl
  constructor
  · intro h
    have hi : text[i]? = some '?' := mem_markPositions.mp (List.mem_of_getElem? h)
    have hnodup : (markPositions text).Nodup := List.Pairwise.filter _ List.nodup_range
    have hlt : k < (markPositions text).length := (List.getElem?_eq_some_iff.mp h).1
    exact ⟨hi, ((List.getElem?_inj hlt hnodup).mp (h.trans (hplace hi).symm)).symm⟩
  · rintro ⟨hi, rfl⟩
    exact hplace hi

/-- What there is for every question mark can be numbered as the question marks are. -/
theorem exists_numbering {α : Type} [Nonempty α] {text : List Char} {P : Nat → α → Prop}
    (h : ∀ i, text[i]? = some '?' → ∃ a, P i a) :
    ∃ f : Nat → α, ∀ i, text[i]? = some '?' → P i (f (marksBefore text i)) := by
  have hall : ∀ k, ∃ a, ∀ i, text[i]? = some '?' → marksBefore text i = k → P i a := by
    intro k
    cases hk : (markPositions text)[k]? with
    | none =>
      refine ⟨Classical.arbitrary α, fun i hi hik => ?_⟩
      rw [getElem?_markPositions.mpr ⟨hi, hik⟩] at hk
      exact absurd hk (by simp)
    | some i =>
      obtain ⟨a, ha⟩ := h i (getElem?_markPositions.mp hk).1
      refine ⟨a, fun j hj hjk => ?_⟩
      rw [getElem?_markPositions.mpr ⟨hj, hjk⟩] at hk
      rwa [Option.some.inj hk]
  obtain ⟨f, hf⟩ := Classical.axiomOfChoice hall
  exact ⟨f, fun i hi => hf _ i hi rfl⟩

/-- Further to the right, no fewer marks stand before a position. -/
theorem marksBefore_mono (text : List Char) {i j : Nat} (h : i ≤ j) :
    marksBefore text i ≤ marksBefore text j :=
  (List.take_sublist_take_left h).count_le '?'

/-- The markers of a template are those of its question marks, in order. -/
theorem markers_parse (source : String) :
    (Template.parse source).markers
      = (markPositions source.toList).map (markerAt source.toList) := by
  rw [Template.markers, placements_parse, List.map_map]
  rfl

/-- Marker `k` is the one that the question mark with number `k` stands for. -/
theorem getElem?_markers_parse {source : String} {k : Nat} {m : Marker} :
    (Template.parse source).markers[k]? = some m
      ↔ ∃ i, source.toList[i]? = some '?' ∧ marksBefore source.toList i = k
          ∧ markerAt source.toList i = m := by
  simp only [markers_parse, List.getElem?_map, Option.map_eq_some_iff, getElem?_markPositions,
    and_assoc]

/-- A template has as many placeholders as question marks. -/
theorem placeholderCount_parse (source : String) :
    (Template.parse source).placeholderCount = source.toList.count '?' := by
  rw [Template.placeholderCount, Template.markers, List.length_map, placements_parse,
    List.length_map, length_markPositions]

/-- **The markers and blocks of a template are where its text says.** Reading the text from its
beginning, by ordered choice, succeeds and finds the same segments. The markers are the question
marks, each with the type that the character after it selects, and inside a block exactly when the
nearest brace on the left opens and the nearest on the right closes. The blocks are the flat spans
of the text in their order, each split into the pieces that its content spells. -/
theorem parse_places (source : String) :
    readTemplate? source.toList = some (Template.parse source).segments
      ∧ (Template.parse source).source = source
      ∧ (Template.parse source).placeholderCount = source.toList.count '?'
      ∧ (Template.parse source).placements
          = (markPositions source.toList).map (fun i =>
              (markerAt source.toList i, isInside source.toList i))
      ∧ ∃ spans : List (Nat × Nat), spans.Pairwise (fun s t => s.1 < t.1)
          ∧ (∀ a b, (a, b) ∈ spans ↔ FlatSpan source.toList a b)
          ∧ List.Forall₂
              (fun pieces span => Piece.Spelling pieces (textBetween source.toList span.1 span.2))
              (Template.parse source).blocks spans := by
  obtain ⟨spans, hspans, hblocks⟩ :=
    forall₂_blocks (Layout.of source.toList) source.toList [] rfl
  refine ⟨readTemplate?_eq source, rfl, placeholderCount_parse source, placements_parse source,
    spans, hspans.ordered, fun a b => ?_, hblocks⟩
  rw [hspans.mem_iff]
  exact and_iff_right (Nat.zero_le a)

end SqlTemplate
