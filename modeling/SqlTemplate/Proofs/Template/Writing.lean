import SqlTemplate.CommandLine.Reports
import SqlTemplate.Proofs.Template.OrderedChoice
import Mathlib.Data.List.Chain

/-!
Templates written back as text.

`Segment.writtenAll` spells segments out, every marker with its code. What is written for the
segments of a text is that text again, but for question marks that stood there without a code
(`shortens_written`), and which segments come from a text at all can be said without reading:
`Segment.Canonical`. Text pieces are as long as they can be, and braces that could be a block are
one.

Both directions are inductions on different data. That the segments of a text are canonical goes by
the layout of the text (`canonical_ofText`); that canonical segments are read back from what is
written for them goes by the segments, one at a time from the left (`ofText_written`). There the
only thing to know about the rest is what it begins with, and which brace is the first in it.
-/

set_option autoImplicit false

namespace SqlTemplate

/-! ## Writing -/

/-- Pieces in a row, in template spelling. -/
def Piece.writtenAll (pieces : List Piece) : String := String.join (pieces.map written)

namespace Segment

/-- A segment in template spelling; a block stands between its braces. -/
def written : Segment → String
  | piece p => p.written
  | block pieces => "\x7b" ++ Piece.writtenAll pieces ++ "\x7d"

/-- Segments in a row, in template spelling. -/
def writtenAll (segments : List Segment) : String := String.join (segments.map written)

end Segment

@[simp] theorem Piece.toList_writtenAll_nil : (writtenAll []).toList = [] := by
  rw [writtenAll, List.map_nil, String.join_nil, String.toList_empty]

@[simp] theorem Piece.toList_writtenAll_cons (p : Piece) (pieces : List Piece) :
    (writtenAll (p :: pieces)).toList = p.written.toList ++ (writtenAll pieces).toList := by
  simp only [writtenAll, List.map_cons, String.join_cons, String.toList_append]

@[simp] theorem Piece.toList_written_marker (m : Marker) :
    (Piece.marker m).written.toList = ['?', m.code] := by
  rw [written, Marker.text, String.toList_ofList]

namespace Segment

@[simp] theorem toList_writtenAll_nil : (writtenAll []).toList = [] := by
  rw [writtenAll, List.map_nil, String.join_nil, String.toList_empty]

@[simp] theorem toList_writtenAll_cons (s : Segment) (segments : List Segment) :
    (writtenAll (s :: segments)).toList = s.written.toList ++ (writtenAll segments).toList := by
  simp only [writtenAll, List.map_cons, String.join_cons, String.toList_append]

/-- A block is written between braces. -/
@[simp] theorem toList_written_block (pieces : List Piece) :
    (block pieces).written.toList = '{' :: ((Piece.writtenAll pieces).toList ++ ['}']) := by
  simp [written]

/-- Pieces in front of segments are written in front of them. -/
theorem toList_writtenAll_append (pieces : List Piece) (segments : List Segment) :
    (writtenAll (pieces.map piece ++ segments)).toList
      = (Piece.writtenAll pieces).toList ++ (writtenAll segments).toList := by
  induction pieces with
  | nil => simp
  | cons p pieces ih =>
    rw [List.map_cons, List.cons_append, toList_writtenAll_cons, ih, Piece.toList_writtenAll_cons,
      List.append_assoc]
    rfl

end Segment

/-! ## Nothing is lost -/

/-- The second text is the first one with some of the markers `?s` cut down to a question mark. -/
inductive Shortens : List Char → List Char → Prop
  | nil : Shortens [] []
  | keep (c : Char) {full short : List Char} (h : Shortens full short) :
    Shortens (c :: full) (c :: short)
  | cut {full short : List Char} (h : Shortens full short) :
    Shortens ('?' :: 's' :: full) ('?' :: short)

namespace Shortens

theorem refl (l : List Char) : Shortens l l := by
  induction l with
  | nil => exact nil
  | cons c l ih => exact keep c ih

/-- Two texts are shortened one behind the other. -/
theorem append {full short full' short' : List Char} (h : Shortens full short)
    (h' : Shortens full' short') : Shortens (full ++ full') (short ++ short') := by
  induction h with
  | nil => exact h'
  | keep c h ih => exact keep c ih
  | cut h ih => exact cut ih

/-- No brace comes or goes. -/
theorem firstBrace_eq {full short : List Char} (h : Shortens full short) :
    firstBrace full = firstBrace short := by
  unfold firstBrace
  induction h with
  | nil => rfl
  | keep c h ih => rw [List.find?_cons, List.find?_cons, ih]
  | cut h ih =>
    rw [List.find?_cons_of_neg (by decide), List.find?_cons_of_neg (by decide),
      List.find?_cons_of_neg (by decide), ih]

end Shortens

/-- A spelling is the written form, with codes left out at most. -/
theorem Piece.Spelling.shortens {pieces : List Piece} {l : List Char} (h : Spelling pieces l) :
    Shortens (writtenAll pieces).toList l := by
  induction h with
  | nil =>
    rw [toList_writtenAll_nil]
    exact Shortens.nil
  | coded m hl ih =>
    rw [toList_writtenAll_cons, toList_written_marker]
    exact Shortens.keep '?' (Shortens.keep m.code ih)
  | bare hcode hl ih =>
    rw [toList_writtenAll_cons, toList_written_marker]
    exact Shortens.cut ih
  | text hne hrun hend hl ih =>
    rw [toList_writtenAll_cons, written, String.toList_ofList]
    exact (Shortens.refl _).append ih

/-- **Writing the segments of a text gives the text back,** with the codes of bare markers added. -/
theorem shortens_written (text : List Char) :
    Shortens (Segment.writtenAll (Segment.ofText text)).toList text := by
  -- The induction is on the layout: each case writes its stretch, and then its braces as they are.
  induction Layout.of text with
  | plain hl =>
    have h := (Piece.spelling_ofText hl).shortens
    rw [Segment.ofText_plain hl, ← List.append_nil (List.map _ _), Segment.toList_writtenAll_append,
      Segment.toList_writtenAll_nil, List.append_nil]
    exact h
  | @closing l r hl hr ih =>
    rw [Segment.ofText_closing hl, Segment.toList_writtenAll_append, Segment.toList_writtenAll_cons]
    exact (Piece.spelling_ofText hl).shortens.append (Shortens.keep '}' ih)
  | opening hl hopen hr ih =>
    rw [Segment.ofText_opening hl hopen, Segment.toList_writtenAll_append,
      Segment.toList_writtenAll_cons]
    exact (Piece.spelling_ofText hl).shortens.append (Shortens.keep '{' ih)
  | @block l body r hl hbody hr ih =>
    have hinner := (Piece.spelling_ofText hbody).shortens
    rw [Segment.ofText_block hl hbody, Segment.toList_writtenAll_append,
      Segment.toList_writtenAll_cons, Segment.toList_written_block, List.cons_append,
      List.append_assoc]
    exact (Piece.spelling_ofText hl).shortens.append
      (Shortens.keep '{' (hinner.append (Shortens.keep '}' ih)))

/-! ## Canonical segments -/

namespace Piece

/-- A piece that may stand anywhere: a marker, or a text that is not empty and has no braces or
question marks in it. -/
def Plain : Piece → Prop
  | text content => content ≠ "" ∧ ∀ c ∈ content.toList, isPlain c = true
  | marker _ => True

/-- Pieces that a text can be read as: no two texts stand side by side. -/
structure Canonical (pieces : List Piece) : Prop where
  plain : ∀ p ∈ pieces, p.Plain
  apart : pieces.IsChain fun p q => p.marker? = none → q.marker? ≠ none

end Piece

namespace Segment

/-- A brace that stands for itself. -/
def stray (b : Char) : Segment := piece (.text (String.ofList [b]))

/-- A text without braces. -/
def IsRun (s : Segment) : Prop := ∃ content, s = piece (.text content) ∧ (Piece.text content).Plain

/-- What may stand as a segment. -/
inductive Proper : Segment → Prop
  | piece {p : Piece} (hp : p.Plain) : Proper (.piece p)
  | stray {b : Char} (hb : isBrace b = true) : Proper (stray b)
  | block {pieces : List Piece} (h : Piece.Canonical pieces) : Proper (.block pieces)

/-- After texts without braces and markers alone comes a stray closing brace. -/
def ClosesAhead (segments : List Segment) : Prop :=
  ∃ between after, segments = between ++ stray '}' :: after
    ∧ ∀ s ∈ between, ∃ p, s = piece p ∧ p.Plain

/-- Segments that a text can be read as: no two texts without braces stand side by side, and no
stray opening brace could be closed. -/
structure Canonical (segments : List Segment) : Prop where
  proper : ∀ s ∈ segments, s.Proper
  apart : segments.IsChain fun s t => s.IsRun → ¬ t.IsRun
  unclosed : ∀ after, stray '{' :: after <:+ segments → ¬ ClosesAhead after

end Segment

/-! ### Pieces in a row -/

namespace Piece

/-- A plain piece is written without braces. -/
theorem noBrace_written {p : Piece} (hp : p.Plain) : NoBrace p.written.toList := by
  cases p with
  | text content => exact fun c hc => isBrace_of_isPlain (hp.2 c hc)
  | marker m =>
    rw [toList_written_marker, noBrace_cons, noBrace_cons]
    exact ⟨rfl, isBrace_of_isPlain (isPlain_code m), noBrace_nil⟩

namespace Canonical

theorem nil : Canonical [] := ⟨fun _ h => absurd h List.not_mem_nil, List.IsChain.nil⟩

/-- A plain piece goes in front of canonical pieces, if no two texts meet. -/
theorem cons {p : Piece} {pieces : List Piece} (hp : p.Plain) (h : Canonical pieces)
    (hsep : p.marker? = none → ∀ q ∈ pieces.head?, q.marker? ≠ none) : Canonical (p :: pieces) :=
  ⟨List.forall_mem_cons.mpr ⟨hp, h.plain⟩,
    List.isChain_cons.mpr ⟨fun q hq hnone => hsep hnone q hq, h.apart⟩⟩

/-- What is behind the first of canonical pieces is canonical. -/
theorem tail {p : Piece} {pieces : List Piece} (h : Canonical (p :: pieces)) : Canonical pieces :=
  ⟨(List.forall_mem_cons.mp h.plain).2, (List.isChain_cons.mp h.apart).2⟩

/-- Canonical pieces are spelled the way they are written. -/
theorem spelling {pieces : List Piece} (h : Canonical pieces) :
    Spelling pieces (writtenAll pieces).toList := by
  induction pieces with
  | nil =>
    rw [toList_writtenAll_nil]
    exact Spelling.nil
  | cons p pieces ih =>
    have hplain := (List.forall_mem_cons.mp h.plain).1
    have hsep := (List.isChain_cons.mp h.apart).1
    rw [toList_writtenAll_cons]
    cases p with
    | marker m =>
      rw [toList_written_marker]
      exact Spelling.coded m (ih h.tail)
    | text content =>
      have hne : content.toList ≠ [] := fun hnil => hplain.1 (String.toList_eq_nil_iff.mp hnil)
      have hend : ∀ c, (writtenAll pieces).toList.head? = some c → c = '?' := by
        -- The next piece is a marker, since two texts do not stand side by side.
        intro c hc
        cases pieces with
        | nil =>
          rw [toList_writtenAll_nil] at hc
          exact absurd hc (by simp)
        | cons q pieces =>
          cases q with
          | text content => exact absurd rfl (hsep _ rfl rfl)
          | marker m =>
            rw [toList_writtenAll_cons, toList_written_marker] at hc
            exact (Option.some.inj hc).symm
      have hspell := Spelling.text hne hplain.2 hend (ih h.tail)
      rwa [String.ofList_toList] at hspell

end Canonical

/-- What has a spelling is canonical. -/
theorem Spelling.canonical {pieces : List Piece} {l : List Char} (h : Spelling pieces l) :
    Canonical pieces := by
  induction h with
  | nil => exact Canonical.nil
  | coded m hl ih => exact ih.cons trivial fun hnone => absurd hnone (by simp [marker?])
  | bare hcode hl ih => exact ih.cons trivial fun hnone => absurd hnone (by simp [marker?])
  | @text run pieces l hne hrun hend hl ih =>
    have hplain : (Piece.text (String.ofList run)).Plain := by
      refine ⟨fun hempty => hne ?_, fun c hc => hrun c (by rwa [String.toList_ofList] at hc)⟩
      rw [← String.toList_ofList (l := run), hempty, String.toList_empty]
    apply ih.cons hplain
    intro _ q hq
    cases hl with
    | nil => exact absurd hq (by simp)
    | coded m hl => simp [← Option.some.inj hq, marker?]
    | bare hcode hl => simp [← Option.some.inj hq, marker?]
    | @text run' pieces l hne' hrun' hend' hl =>
      -- A second text would begin with a plain character where only a question mark can follow.
      obtain ⟨c, run', rfl⟩ := List.exists_cons_of_ne_nil hne'
      have hc := hend c rfl
      exact absurd hc (ne_mark_of_isPlain (hrun' c List.mem_cons_self))

end Piece

/-! ### Segments in a row -/

namespace Segment

/-- A brace is no plain piece. -/
theorem not_plain_of_isBrace {b : Char} (hb : isBrace b = true) :
    ¬ (Piece.text (String.ofList [b])).Plain := by
  intro h
  have hplain := h.2 b (by rw [String.toList_ofList]; exact List.mem_cons_self)
  rw [isPlain, hb] at hplain
  exact absurd hplain (by simp)

theorem not_isRun_stray {b : Char} (hb : isBrace b = true) : ¬ (stray b).IsRun := by
  rintro ⟨content, heq, hplain⟩
  rw [stray, piece.injEq, Piece.text.injEq] at heq
  exact not_plain_of_isBrace hb (heq ▸ hplain)

/-- A plain piece is no stray brace. -/
theorem piece_ne_stray {p : Piece} (hp : p.Plain) {b : Char} (hb : isBrace b = true) :
    piece p ≠ stray b := by
  intro heq
  rw [stray, piece.injEq] at heq
  exact not_plain_of_isBrace hb (heq ▸ hp)

theorem not_isRun_block (pieces : List Piece) : ¬ (block pieces).IsRun := by
  rintro ⟨content, heq, -⟩
  exact absurd heq (by simp)

/-- A closing brace is ahead at once, or behind plain pieces. -/
theorem closesAhead_cons {s : Segment} {segments : List Segment} :
    ClosesAhead (s :: segments)
      ↔ s = stray '}' ∨ (∃ p, s = piece p ∧ p.Plain) ∧ ClosesAhead segments := by
  constructor
  · rintro ⟨between, after, heq, hplain⟩
    cases between with
    | nil => exact Or.inl (List.cons.inj heq).1
    | cons t between =>
      obtain ⟨rfl, rfl⟩ := List.cons.inj heq
      obtain ⟨hs, hplain⟩ := List.forall_mem_cons.mp hplain
      exact Or.inr ⟨hs, between, after, rfl, hplain⟩
  · rintro (rfl | ⟨hs, between, after, rfl, hplain⟩)
    · exact ⟨[], segments, rfl, fun _ h => absurd h List.not_mem_nil⟩
    · exact ⟨s :: between, after, rfl, List.forall_mem_cons.mpr ⟨hs, hplain⟩⟩

/-- In what is written the first brace is a closing one where a stray one comes next. -/
theorem closesAhead_iff {segments : List Segment} (h : ∀ s ∈ segments, s.Proper) :
    ClosesAhead segments ↔ firstBrace (writtenAll segments).toList = some '}' := by
  induction segments with
  | nil =>
    rw [toList_writtenAll_nil, firstBrace_of_noBrace noBrace_nil]
    constructor
    · rintro ⟨between, after, heq, -⟩
      exact absurd heq (by simp)
    · intro hnone
      exact absurd hnone (by simp)
  | cons s segments ih =>
    obtain ⟨hs, htail⟩ := List.forall_mem_cons.mp h
    rw [closesAhead_cons, toList_writtenAll_cons]
    cases hs with
    | @piece p hp =>
      -- No brace here, so both sides look further.
      have hne : piece p ≠ stray '}' := piece_ne_stray hp rfl
      rw [written, firstBrace_append (Piece.noBrace_written hp), ← ih htail]
      simp [hne, hp]
    | @stray b hb =>
      have hwritten : (stray b).written.toList = [b] := String.toList_ofList
      have hnot : ¬ ∃ p, stray b = piece p ∧ p.Plain := by
        rintro ⟨p, heq, hp⟩
        exact piece_ne_stray hp hb heq.symm
      have hsame : stray b = stray '}' ↔ b = '}' := by
        constructor
        · intro heq
          have hlist := congrArg (fun s => s.written.toList) heq
          exact (List.cons.inj (hwritten.symm.trans hlist)).1
        · rintro rfl
          rfl
      rw [hwritten, List.singleton_append, firstBrace_cons_of_isBrace hb, hsame,
        Option.some.injEq]
      exact or_iff_left fun h => hnot h.1
    | @block pieces hpieces =>
      rw [toList_written_block, List.cons_append, firstBrace_cons_of_isBrace rfl]
      simp [stray]

namespace Canonical

theorem nil : Canonical [] := by
  refine ⟨fun _ h => absurd h List.not_mem_nil, List.IsChain.nil, fun after hsuffix => ?_⟩
  exact absurd (List.eq_nil_of_suffix_nil hsuffix) (by simp)

/-- A proper segment goes in front of canonical ones, if no two runs meet and no brace comes to open
a block. -/
theorem cons {s : Segment} {segments : List Segment} (hs : s.Proper) (h : Canonical segments)
    (hsep : s.IsRun → ∀ t ∈ segments.head?, ¬ t.IsRun)
    (hopen : s = stray '{' → ¬ ClosesAhead segments) : Canonical (s :: segments) := by
  refine ⟨List.forall_mem_cons.mpr ⟨hs, h.proper⟩,
    List.isChain_cons.mpr ⟨fun t ht hrun => hsep hrun t ht, h.apart⟩, fun after hsuffix => ?_⟩
  rcases List.suffix_cons_iff.mp hsuffix with heq | hsuffix
  · obtain ⟨rfl, rfl⟩ := List.cons.inj heq
    exact hopen rfl
  · exact h.unclosed after hsuffix

/-- What is behind the first of canonical segments is canonical. -/
theorem tail {s : Segment} {segments : List Segment} (h : Canonical (s :: segments)) :
    Canonical segments :=
  ⟨(List.forall_mem_cons.mp h.proper).2, (List.isChain_cons.mp h.apart).2,
    fun after hsuffix => h.unclosed after (hsuffix.trans (List.suffix_cons s segments))⟩

/-- Canonical pieces go in front of canonical segments, if no two runs meet. -/
theorem pieces_append {pieces : List Piece} {segments : List Segment}
    (hpieces : Piece.Canonical pieces) (h : Canonical segments)
    (hsep : ∀ t ∈ segments.head?, ¬ t.IsRun) : Canonical (pieces.map piece ++ segments) := by
  induction pieces with
  | nil => exact h
  | cons p pieces ih =>
    have hp : p.Plain := hpieces.plain p List.mem_cons_self
    rw [List.map_cons, List.cons_append]
    apply (ih hpieces.tail).cons (Proper.piece hp)
    · rintro ⟨content, heq, -⟩ t ht
      cases pieces with
      | nil => exact hsep t ht
      | cons q pieces =>
        -- After a text there is a marker.
        have hmarker := (List.isChain_cons.mp hpieces.apart).1 q rfl
        rw [piece.injEq] at heq
        rw [← Option.some.inj ht]
        rintro ⟨content', heq', -⟩
        rw [piece.injEq] at heq'
        exact hmarker (by rw [heq]; rfl) (by rw [heq']; rfl)
    · intro heq
      exact absurd heq (piece_ne_stray hp rfl)

end Canonical

/-- **The segments of a text are canonical.** -/
theorem canonical_ofText (text : List Char) : Canonical (ofText text) := by
  induction Layout.of text with
  | plain hl =>
    have h := Canonical.nil.pieces_append (Piece.spelling_ofText hl).canonical (by simp)
    rw [ofText_plain hl, ← List.append_nil (List.map _ _)]
    exact h
  | closing hl hr ih =>
    rw [ofText_closing hl]
    apply Canonical.pieces_append (Piece.spelling_ofText hl).canonical
    · exact ih.cons (Proper.stray rfl) (fun hrun => absurd hrun (not_isRun_stray rfl))
        fun heq => absurd heq (by decide)
    · intro t ht
      rw [← Option.some.inj ht]
      exact not_isRun_stray rfl
  | @opening l r hl hopen hr ih =>
    -- What is written for the rest has the same first brace as the rest.
    have hunclosed : ¬ ClosesAhead (ofText r) := by
      rw [closesAhead_iff ih.proper, (shortens_written r).firstBrace_eq]
      exact hopen
    rw [ofText_opening hl hopen]
    apply Canonical.pieces_append (Piece.spelling_ofText hl).canonical
    · exact ih.cons (Proper.stray rfl) (fun hrun => absurd hrun (not_isRun_stray rfl))
        fun _ => hunclosed
    · intro t ht
      rw [← Option.some.inj ht]
      exact not_isRun_stray rfl
  | block hl hbody hr ih =>
    rw [ofText_block hl hbody]
    apply Canonical.pieces_append (Piece.spelling_ofText hl).canonical
    · exact ih.cons (Proper.block (Piece.spelling_ofText hbody).canonical)
        (fun hrun => absurd hrun (not_isRun_block _)) fun heq => absurd heq (by simp [stray])
    · intro t ht
      rw [← Option.some.inj ht]
      exact not_isRun_block _

/-! ## Reading what was written -/

/-- What is written for a segment that is no text does not begin with a plain character. -/
theorem head_written {s : Segment} (hs : s.Proper) (hrun : ¬ s.IsRun) :
    ∃ c l, s.written.toList = c :: l ∧ isPlain c = false := by
  cases hs with
  | @piece p hp =>
    cases p with
    | text content => exact absurd ⟨content, rfl, hp⟩ hrun
    | marker m => exact ⟨'?', [m.code], Piece.toList_written_marker m, rfl⟩
  | @stray b hb => exact ⟨b, [], String.toList_ofList, by rw [isPlain, hb]; rfl⟩
  | @block pieces h => exact ⟨'{', _, toList_written_block pieces, rfl⟩

/-- **Canonical segments are read back from what is written for them.** -/
theorem ofText_written {segments : List Segment} (h : Canonical segments) :
    ofText (writtenAll segments).toList = segments := by
  induction segments with
  | nil =>
    rw [toList_writtenAll_nil]
    rfl
  | cons s segments ih =>
    have htail := ih h.tail
    have hs : s.Proper := h.proper s List.mem_cons_self
    rw [toList_writtenAll_cons]
    cases hs with
    | @piece p hp =>
      cases p with
      | marker m =>
        rw [written, Piece.toList_written_marker, List.cons_append, List.cons_append,
          List.nil_append, ofText_coded, htail]
      | text content =>
        have hne : content.toList ≠ [] := fun hnil => hp.1 (String.toList_eq_nil_iff.mp hnil)
        have hstop : ∀ d, (writtenAll segments).toList.head? = some d → isPlain d = false := by
          -- The text is the whole run, since what stands next to it is no text.
          intro d hd
          cases segments with
          | nil =>
            rw [toList_writtenAll_nil] at hd
            exact absurd hd (by simp)
          | cons t segments =>
            have hnext := (List.isChain_cons.mp h.apart).1 t rfl ⟨content, rfl, hp⟩
            obtain ⟨c, l, hwritten, hc⟩ := head_written (h.tail.proper t List.mem_cons_self) hnext
            rw [toList_writtenAll_cons, hwritten] at hd
            rwa [← Option.some.inj hd]
        rw [written, Piece.written, ofText_run hne hp.2 hstop, htail, String.ofList_toList]
    | stray hb =>
      rcases eq_of_isBrace hb with rfl | rfl
      · have hopen : firstBrace (writtenAll segments).toList ≠ some '}' := by
          rw [ne_eq, ← closesAhead_iff h.tail.proper]
          exact h.unclosed segments (List.suffix_refl _)
        have hread := ofText_opening noBrace_nil hopen
        rw [htail] at hread
        exact hread
      · have hread := ofText_closing noBrace_nil (writtenAll segments).toList
        rw [htail] at hread
        exact hread
    | @block pieces hpieces =>
      have hspell := hpieces.spelling
      have hread := ofText_block noBrace_nil hspell.noBrace (writtenAll segments).toList
      rw [htail, ← hspell.eq_ofText] at hread
      rw [toList_written_block, List.cons_append, List.append_assoc, List.singleton_append]
      exact hread

/-- A block among canonical segments is canonical alone. -/
theorem Canonical.singleton {s : Segment} {segments : List Segment} (h : Canonical segments)
    (hs : s ∈ segments) (hblock : s.block?.isSome) : Canonical [s] := by
  apply Canonical.nil.cons (h.proper s hs)
  · intro _ t ht
    exact absurd ht (by simp)
  · rintro rfl
    exact absurd hblock (by decide)

end Segment

open Segment in
/-- **Reading a template loses nothing, and gives what can be read back.** Reading by ordered choice
succeeds on every text. What is written for the segments is the text, but for question marks that
stood without a code. The segments are canonical, and canonical segments are read back from what is
written for them, so that reading, writing and reading again changes nothing. A block as the listing
of a template shows it is read as that one block. -/
theorem parse_lossless (source : String) :
    readTemplate? source.toList = some (Template.parse source).segments
      ∧ Shortens (writtenAll (Template.parse source).segments).toList source.toList
      ∧ Canonical (Template.parse source).segments
      ∧ (∀ segments, Canonical segments →
          (Template.parse (writtenAll segments)).segments = segments)
      ∧ (Template.parse (writtenAll (Template.parse source).segments)).segments
          = (Template.parse source).segments
      ∧ ∀ pieces ∈ (Template.parse source).blocks,
          CommandLine.Painter.blockLine ⟨false⟩ pieces = "  " ++ (block pieces).written
            ∧ (Template.parse (block pieces).written).segments = [block pieces] := by
  have hcanonical : Canonical (Template.parse source).segments := canonical_ofText source.toList
  have hread : ∀ segments, Canonical segments →
      (Template.parse (writtenAll segments)).segments = segments := fun _ h => ofText_written h
  refine ⟨readTemplate?_eq source, shortens_written source.toList, hcanonical, hread,
    hread _ hcanonical, fun pieces hpieces => ⟨?_, ?_⟩⟩
  · rw [written, ← String.append_assoc, ← String.append_assoc]
    rfl
  · obtain ⟨s, hs, hblock⟩ := List.mem_filterMap.mp hpieces
    cases s with
    | piece p => exact absurd hblock (by simp [block?])
    | block body =>
      -- A canonical template has only canonical segments, and one of them makes a template by
      -- itself.
      obtain rfl : body = pieces := Option.some.inj hblock
      have hsingle := hread [block body] (hcanonical.singleton hs rfl)
      rwa [writtenAll, List.map_singleton, String.join_cons, String.join_nil, String.append_empty]
        at hsingle

end SqlTemplate
