import SqlTemplate.Proofs.Format.NullTexts
import SqlTemplate.Proofs.Template.Writing

/-!
What the textual mode of elision drops.

The body of a block is its text pieces and what replaces its markers, one behind the other, and the
textual mode looks for `NULL` in all of it. In a template that was read from a text, two text pieces
never stand side by side, and what replaces a marker is sealed unless it shows `NULL` itself. So no
occurrence lies across a border, and the block is dropped exactly if one of its text pieces has
`NULL` in it or one of its markers is given a value that brings it along
(`textual_drops_iff`). Only a list or a mapping without items is written as nothing, and then the
pieces around it come to stand side by side.
-/

set_option autoImplicit false

namespace SqlTemplate

open Rendered (HasNull)

/-! ## The body of a block -/

namespace Piece

variable {answer : Nat → String × Bool} {k j : Nat} {pieces : List Piece}

theorem filledText_text (content : String) :
    filledText answer k (.text content :: pieces) = content ++ filledText answer k pieces := by
  rw [filledText, fillAll_text, List.map_cons, String.join_cons]
  rfl

theorem filledText_marker (m : Marker) :
    filledText answer k (.marker m :: pieces)
      = (answer k).1 ++ filledText answer (k + 1) pieces := by
  rw [filledText, fillAll_marker, List.map_cons, String.join_cons]
  rfl

theorem length_markers_text (content : String) :
    ((Piece.text content :: pieces).flatMap markers).length
      = (pieces.flatMap markers).length := rfl

theorem length_markers_marker (m : Marker) :
    ((Piece.marker m :: pieces).flatMap markers).length
      = (pieces.flatMap markers).length + 1 := rfl

/-- A text piece with `NULL` in it shows in the body. -/
theorem hasNull_filledText_of_text {content : String} (hmem : .text content ∈ pieces)
    (h : HasNull content) : HasNull (filledText answer k pieces) := by
  have hpart : (content, false) ∈ fillAll answer k pieces := by
    induction pieces generalizing k with
    | nil => exact absurd hmem List.not_mem_nil
    | cons p pieces ih =>
      rcases List.mem_cons.mp hmem with hhere | hrest
      · rw [← hhere]
        exact List.mem_cons_self
      · cases p with
        | text content' => exact List.mem_cons_of_mem _ (ih hrest)
        | marker m => exact List.mem_cons_of_mem _ (ih hrest)
  exact h.trans (infix_join (List.mem_map_of_mem (f := Prod.fst) hpart))

/-- An answer with `NULL` in it shows in the body. -/
theorem hasNull_filledText_of_answer (hle : k ≤ j) (hlt : j < k + (pieces.flatMap markers).length)
    (h : HasNull (answer j).1) : HasNull (filledText answer k pieces) := by
  have hpart : answer j ∈ fillAll answer k pieces := by
    induction pieces generalizing k with
    | nil =>
      rw [List.flatMap_nil, List.length_nil] at hlt
      omega
    | cons p pieces ih =>
      cases p with
      | text content =>
        rw [length_markers_text] at hlt
        exact List.mem_cons_of_mem _ (ih hle hlt)
      | marker m =>
        rw [length_markers_marker] at hlt
        rw [fillAll_marker]
        by_cases hj : j = k
        · rw [hj]
          exact List.mem_cons_self
        · exact List.mem_cons_of_mem _ (ih (by omega) (by omega))
  exact h.trans (infix_join (List.mem_map_of_mem (f := Prod.fst) hpart))

/-- Behind a text piece stands nothing, or a marker whose answer is sealed. -/
theorem head_filledText {content : String} (hpieces : Canonical (.text content :: pieces))
    (hanswers : ∀ j, k ≤ j → j < k + (pieces.flatMap markers).length → Sealed (answer j).1) :
    ∀ c, (filledText answer k pieces).toList.head? = some c → c ∉ nullText.toList := by
  intro c hc
  cases pieces with
  | nil => exact absurd hc (by simp [filledText])
  | cons q pieces =>
    cases q with
    | text content' => exact absurd rfl ((List.isChain_cons.mp hpieces.apart).1 _ rfl rfl)
    | marker m =>
      have hk := hanswers k (Nat.le_refl k) (by rw [length_markers_marker]; omega)
      rw [filledText_marker, String.toList_append, List.head?_append_of_ne_nil _ hk.ne_nil] at hc
      exact hk.head c hc

/-- Where neither a text piece nor an answer has `NULL` in it and the answers are sealed, no
occurrence comes about by putting them together. -/
theorem not_hasNull_filledText (hpieces : Canonical pieces)
    (htexts : ∀ content, .text content ∈ pieces → ¬ HasNull content)
    (hanswers : ∀ j, k ≤ j → j < k + (pieces.flatMap markers).length → Sealed (answer j).1)
    (hnone : ∀ j, k ≤ j → j < k + (pieces.flatMap markers).length → ¬ HasNull (answer j).1) :
    ¬ HasNull (filledText answer k pieces) := by
  -- The induction is on the pieces; one border is looked at in each step.
  induction pieces generalizing k with
  | nil => exact fun h => absurd (List.eq_nil_of_infix_nil h) (by decide)
  | cons p pieces ih =>
    have htail : ∀ content, .text content ∈ pieces → ¬ HasNull content :=
      fun content hmem => htexts content (List.mem_cons_of_mem p hmem)
    cases p with
    | text content =>
      have hborder := head_filledText hpieces hanswers
      rw [filledText_text, HasNull, String.toList_append, infix_append_iff (Or.inr hborder)]
      rintro (h | h)
      · exact htexts content List.mem_cons_self h
      · exact ih hpieces.tail htail hanswers hnone h
    | marker m =>
      rw [length_markers_marker] at hanswers hnone
      have hborder := (hanswers k (Nat.le_refl k) (by omega)).last
      rw [filledText_marker, HasNull, String.toList_append, infix_append_iff (Or.inl hborder)]
      rintro (h | h)
      · exact hnone k (Nat.le_refl k) (by omega) h
      · exact ih hpieces.tail htail (fun j hle hlt => hanswers j (by omega) (by omega))
          (fun j hle hlt => hnone j (by omega) (by omega)) h

/-- **`NULL` occurs in the body of a block exactly if a text piece or an answer has it.** -/
theorem hasNull_filledText_iff {condition : Nat → Prop} (hpieces : Canonical pieces)
    (hanswers : ∀ j, k ≤ j → j < k + (pieces.flatMap markers).length →
      ShowsNullIff (answer j).1 (condition j)) :
    HasNull (filledText answer k pieces)
      ↔ (∃ content, .text content ∈ pieces ∧ HasNull content)
        ∨ ∃ j, k ≤ j ∧ j < k + (pieces.flatMap markers).length ∧ condition j := by
  constructor
  · intro h
    -- If neither has it, all answers are sealed, and nothing can come about across a border.
    by_contra hneither
    rw [not_or] at hneither
    have hnot : ∀ j, k ≤ j → j < k + (pieces.flatMap markers).length → ¬ condition j :=
      fun j hle hlt hj => hneither.2 ⟨j, hle, hlt, hj⟩
    refine not_hasNull_filledText hpieces (fun content hmem hcontent => ?_) (fun j hle hlt => ?_)
      (fun j hle hlt => ?_) h
    · exact hneither.1 ⟨content, hmem, hcontent⟩
    · exact (hanswers j hle hlt).isSealed (hnot j hle hlt)
    · exact mt (hanswers j hle hlt).hasNull_iff.mp (hnot j hle hlt)
  · rintro (⟨content, hmem, hcontent⟩ | ⟨j, hle, hlt, hj⟩)
    · exact hasNull_filledText_of_text hmem hcontent
    · exact hasNull_filledText_of_answer hle hlt ((hanswers j hle hlt).hasNull_iff.mpr hj)

end Piece

/-! ## The blocks of a template -/

namespace Template

variable {t : Template} {i k : Nat} {pieces : List Piece}

/-- A block holds as many markers as its pieces are. -/
theorem holds_block_iff (hs : t.segments[i]? = some (.block pieces)) :
    t.Holds i k
      ↔ t.firstMarker i ≤ k ∧ k < t.firstMarker i + (pieces.flatMap Piece.markers).length := by
  rw [Holds, firstMarker_succ hs, Segment.markers_block]

/-- The pieces of a block of a template are canonical. -/
theorem canonical_of_block {source : String}
    (hs : (Template.parse source).segments[i]? = some (.block pieces)) :
    Piece.Canonical pieces := by
  have hproper := (Segment.canonical_ofText source.toList).proper _ (List.mem_of_getElem? hs)
  cases hproper with
  | block h => exact h

end Template

/-- The value that is given to a marker of a template, a missing one counting as skip, brings `NULL`
along. -/
def Template.BringsNullAt (t : Template) (arguments : List Value) (k : Nat) : Prop :=
  ∃ m, t.markers[k]? = some m ∧ m.BringsNull (argumentAt arguments k)

/-- An answer mentions `NULL` exactly if its marker brings it. -/
theorem Template.showsNullIff_answer {mode : EscapingMode} {strict : Bool} {t : Template}
    {arguments : List Value} {answer : Nat → String × Bool} {k : Nat}
    (h : (Cursor.start arguments strict).Answers mode.escaper t.markers answer)
    (hk : k < t.markers.length)
    (hfull : ∀ m, t.markers[k]? = some m → m = .array ∨ m = .identifier →
      ¬ (argumentAt arguments k).IsEmptyContainer) :
    ShowsNullIff (answer k).1 (t.BringsNullAt arguments k) := by
  have hm := List.getElem?_eq_getElem hk
  have hreply := h k _ hm
  simp only [Cursor.start, Nat.zero_add] at hreply
  refine (Marker.showsNullIff (Cursor.eq_of_reply_ok hreply).1 (hfull _ hm)).congr ⟨?_, ?_⟩
  · exact fun hbrings => ⟨_, hm, hbrings⟩
  · rintro ⟨m, hm', hbrings⟩
    rwa [Option.some.inj (hm.symm.trans hm')]

/-- A value that is a truth value or a number, or text where a number is asked for. -/
inductive Marker.AsksNumber : Marker → Value → Prop
  | bool {m : Marker} {truth : Bool} : AsksNumber m (.bool truth)
  | int {m : Marker} {number : Int64} : AsksNumber m (.int number)
  | float {m : Marker} {number : Binary64} : AsksNumber m (.float number)
  | integerText {content : String} : AsksNumber .integer (.text content)
  | floatText {content : String} : AsksNumber .float (.text content)

/-- A marker that asks for a number brings no `NULL`. -/
theorem Marker.AsksNumber.not_bringsNull {m : Marker} {v : Value} (h : m.AsksNumber v) :
    ¬ m.BringsNull v := by
  intro hbrings
  cases h <;> cases hbrings

/-- **What the textual mode drops.** Say a template is substituted under the rules of a mode, and
take a block none of whose array and identifier markers is given a list or a mapping without items.
The textual mode drops the block exactly if one of its own text pieces has `NULL` in it, or one of
its markers is given a value that brings `NULL` along. So it keeps a block whose text pieces have no
`NULL` and whose markers are given truth values and numbers only, or text where a number is asked
for. -/
theorem textual_drops_iff {mode : EscapingMode} {strict : Bool} {source : String}
    {arguments : List Value} {rendered : List Rendered} {i : Nat} {pieces : List Piece}
    (hrun : (Template.parse source).substituted mode.escaper strict arguments = .ok rendered)
    (hs : (Template.parse source).segments[i]? = some (.block pieces))
    (hfull : ∀ k m, (Template.parse source).Holds i k →
      (Template.parse source).markers[k]? = some m → m = .array ∨ m = .identifier →
      ¬ (argumentAt arguments k).IsEmptyContainer) :
    ∃ body skipped, rendered[i]? = some (.block body skipped)
      ∧ (ElisionMode.textual.drops body skipped = true
        ↔ (∃ content, .text content ∈ pieces ∧ nullText.toList <:+: content.toList)
          ∨ ∃ k, (Template.parse source).Holds i k
            ∧ (Template.parse source).BringsNullAt arguments k)
      ∧ ((∀ content, .text content ∈ pieces → ¬ nullText.toList <:+: content.toList) →
        (∀ k m, (Template.parse source).Holds i k →
          (Template.parse source).markers[k]? = some m →
          m.AsksNumber (argumentAt arguments k)) →
        ElisionMode.textual.drops body skipped = false) := by
  obtain ⟨answer, hanswers, rfl⟩ := Template.exists_answers_of_substituted hrun
  -- The markers of the block are answered from its first marker on.
  have hiff : HasNull (Piece.filledText answer ((Template.parse source).firstMarker i) pieces)
      ↔ (∃ content, .text content ∈ pieces ∧ HasNull content)
        ∨ ∃ k, (Template.parse source).Holds i k
          ∧ (Template.parse source).BringsNullAt arguments k := by
    have hshows : ∀ k, (Template.parse source).firstMarker i ≤ k →
        k < (Template.parse source).firstMarker i + (pieces.flatMap Piece.markers).length →
        ShowsNullIff (answer k).1 ((Template.parse source).BringsNullAt arguments k) := by
      intro k hle hlt
      have hholds := (Template.holds_block_iff hs).mpr ⟨hle, hlt⟩
      exact Template.showsNullIff_answer hanswers hholds.lt_length fun m => hfull k m hholds
    rw [Piece.hasNull_filledText_iff (Template.canonical_of_block hs) hshows]
    simp only [Template.holds_block_iff hs, and_assoc]
  have hdrops : ∀ body skipped,
      ElisionMode.textual.drops body skipped = true ↔ HasNull body :=
    fun body _ => mentionsNull_iff body
  refine ⟨_, _, Template.getElem?_fill_of_segment hs answer, (hdrops _ _).trans hiff,
    fun htexts hnumbers => ?_⟩
  rw [← Bool.not_eq_true, hdrops, hiff, not_or]
  refine ⟨fun ⟨content, hmem, hcontent⟩ => htexts content hmem hcontent, ?_⟩
  rintro ⟨k, hholds, m, hm, hbrings⟩
  exact (hnumbers k m hholds hm).not_bringsNull hbrings

/-- `NU` in front of a number and `LL` behind it stay apart, and so do the items of a list. -/
theorem textual_drops_iff_split_null :
    (Template.parse "\x7bNU?dLL ?a\x7d").substituted EscapingMode.mysql.escaper true
        [.int 7, .sequence [.text "NU", .text "LL"]]
      = .ok [.block "NU7LL 'NU', 'LL'" false]
      ∧ (ElisionMode.textual.drops "NU7LL 'NU', 'LL'" false = true
        ↔ (∃ content, .text content ∈ [Piece.text "NU", .marker .integer, .text "LL ",
              .marker .array] ∧ nullText.toList <:+: content.toList)
          ∨ ∃ k, (Template.parse "\x7bNU?dLL ?a\x7d").Holds 0 k
            ∧ (Template.parse "\x7bNU?dLL ?a\x7d").BringsNullAt
              [.int 7, .sequence [.text "NU", .text "LL"]] k)
      ∧ ElisionMode.textual.drops "NU7LL 'NU', 'LL'" false = false := by
  have hrun : (Template.parse "\x7bNU?dLL ?a\x7d").substituted EscapingMode.mysql.escaper true
      [.int 7, .sequence [.text "NU", .text "LL"]]
      = .ok [.block "NU7LL 'NU', 'LL'" false] := by decide +kernel
  have hblock : (Template.parse "\x7bNU?dLL ?a\x7d").segments[0]?
      = some (.block [.text "NU", .marker .integer, .text "LL ", .marker .array]) := by
    decide +kernel
  have hmarkers : (Template.parse "\x7bNU?dLL ?a\x7d").markers = [.integer, .array] := by
    decide +kernel
  have hfull : ∀ k m, (Template.parse "\x7bNU?dLL ?a\x7d").Holds 0 k →
      (Template.parse "\x7bNU?dLL ?a\x7d").markers[k]? = some m → m = .array ∨ m = .identifier →
      ¬ (argumentAt [.int 7, .sequence [.text "NU", .text "LL"]] k).IsEmptyContainer := by
    intro k m hholds
    rw [hmarkers]
    -- Neither argument is an empty list, and there are no more markers.
    match k with
    | 0 => exact fun _ _ hempty => hempty
    | 1 => exact fun _ _ hempty => List.cons_ne_nil _ _ hempty
    | k + 2 => exact fun hm => absurd hm (by simp)
  obtain ⟨body, skipped, hrendered, hiff, -⟩ := textual_drops_iff hrun hblock hfull
  cases hrendered
  exact ⟨hrun, hiff, by decide +kernel⟩

end SqlTemplate
