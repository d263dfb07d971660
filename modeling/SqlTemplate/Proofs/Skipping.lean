import SqlTemplate.Proofs.SegmentMarkers
import Mathlib.Data.List.Basic

/-!
What a skip changes, and what a dropped block hides.

Two runs over one template are compared through the answers that its markers get, since a rendered
segment depends on the answers to its own markers alone. Where one argument is replaced by the skip
sentinel, one answer changes and with it one rendered segment (`substituted_set_skip`). Where two
argument lists skip in the same blocks and differ only inside them, the blocks that differ are
dropped from both (`compile_eq_of_agree`).
-/

set_option autoImplicit false

namespace SqlTemplate

variable {escape : Escaper} {strict : Bool} {t : Template} {arguments : List Value}
  {answer : Nat → String × Bool} {i k : Nat}

/-! ## Runs and answers -/

namespace Template

/-- What substituting makes of a template and its arguments. -/
def substituted (escape : Escaper) (strict : Bool) (t : Template) (arguments : List Value) :
    Except Error (List Rendered) :=
  ((t.substitute escape).outcome (.start arguments strict)).1

/-- When every marker is answered, the template is filled. -/
theorem substituted_of_answers
    (h : (Cursor.start arguments strict).Answers escape t.markers answer) :
    t.substituted escape strict arguments = .ok (t.fill answer) := by
  unfold substituted
  rw [(asks_substitute escape t).answered _ _ h]
  rfl

/-- A template that is substituted had every marker answered. -/
theorem exists_answers_of_substituted {rendered : List Rendered}
    (h : t.substituted escape strict arguments = .ok rendered) :
    ∃ answer, (Cursor.start arguments strict).Answers escape t.markers answer
      ∧ rendered = t.fill answer := by
  rcases Cursor.answers_or_refuses escape (Cursor.start arguments strict) t.markers with
    ⟨answer, hanswers⟩ | ⟨i, e, hrefuses⟩
  · rw [substituted_of_answers hanswers] at h
    exact ⟨answer, hanswers, (Except.ok.inj h).symm⟩
  · unfold substituted at h
    rw [(asks_substitute escape t).refused _ _ _ hrefuses] at h
    exact absurd h (by simp)

end Template

/-! ## One argument replaced by the skip sentinel -/

/-- The skip sentinel is answered with `NULL` at every marker, and other answers stay. -/
theorem Template.answers_set_skip (hcount : t.markers.length ≤ arguments.length)
    (h : (Cursor.start arguments strict).Answers escape t.markers answer) (k : Nat) :
    (Cursor.start (arguments.set k .skip) strict).Answers escape t.markers
      (Function.update answer k (nullText, true)) := by
  intro j m hm
  have hj : j < arguments.length :=
    Nat.lt_of_lt_of_le (List.getElem?_eq_some_iff.mp hm).1 hcount
  have hreply := h j m hm
  rw [Cursor.reply_of_lt hj] at hreply
  rw [Cursor.reply_of_lt (by rwa [List.length_set])]
  simp only [Cursor.start, Nat.zero_add] at hreply ⊢
  -- The request at the replaced place gets the sentinel, which no marker refuses.
  by_cases hjk : j = k
  · have hskip : argumentAt (arguments.set k .skip) k = .skip := by
      unfold argumentAt
      rw [List.getElem?_set_self (hjk ▸ hj), Option.getD_some]
    rw [hjk, hskip, Function.update_self]
    rfl
  · have hkeep : argumentAt (arguments.set k .skip) j = argumentAt arguments j := by
      unfold argumentAt
      rw [List.getElem?_set_ne (Ne.symm hjk)]
    rw [hkeep, hreply, Function.update_of_ne hjk]

/-- One answer changes one rendered segment. -/
theorem Template.fill_update {s : Segment} (hs : t.segments[i]? = some s) (hholds : t.Holds i k)
    (a : String × Bool) :
    t.fill (Function.update answer k a)
      = (t.fill answer).set i (s.fill (Function.update answer k a) (t.firstMarker i)) := by
  apply List.ext_getElem?
  intro j
  rw [getElem?_fill]
  by_cases hji : j = i
  · have hi := (List.getElem?_eq_some_iff.mp (getElem?_fill_of_segment hs answer)).1
    rw [hji, hs, List.getElem?_set_self hi, Option.map_some]
  · rw [List.getElem?_set_ne (Ne.symm hji), getElem?_fill]
    cases hj : t.segments[j]? with
    | none => rfl
    | some s' =>
      -- Another segment does not hold the marker.
      rw [Option.map_some, Option.map_some, fill_congr_of_holds hj]
      intro l hl
      apply Function.update_of_ne
      rintro rfl
      exact hji (hl.unique hholds)

/-- A block that holds the changed answer is skipped if this is what the skip sentinel gets. -/
theorem Template.fill_update_block {pieces : List Piece}
    (hs : t.segments[i]? = some (.block pieces)) (hholds : t.Holds i k)
    (answer : Nat → String × Bool) (text : String) :
    (Segment.block pieces).fill (Function.update answer k (text, true)) (t.firstMarker i)
      = .block (Piece.filledText (Function.update answer k (text, true)) (t.firstMarker i) pieces)
          true := by
  have hskip : Piece.filledSkip (Function.update answer k (text, true)) (t.firstMarker i) pieces
      = true := by
    rw [filledSkip_iff_holds hs]
    exact ⟨k, hholds, by rw [Function.update_self]⟩
  rw [Segment.fill, hskip]

/-- A marker outside of blocks is filled with its own answer. -/
theorem Template.fill_update_marker {m : Marker}
    (hs : t.segments[i]? = some (.piece (.marker m))) (hholds : t.Holds i k)
    (answer : Nat → String × Bool) (a : String × Bool) :
    (Segment.piece (.marker m)).fill (Function.update answer k a) (t.firstMarker i)
      = .text a.1 := by
  have hfirst : t.firstMarker i = k := by
    have hsucc := firstMarker_succ hs
    have hone : (Segment.piece (.marker m)).markers.length = 1 := rfl
    have hle := hholds.1
    have hlt := hholds.2
    omega
  rw [hfirst, Segment.fill, Piece.fill, Function.update_self]

/-- What is resolved comes from the segments before a place, the one there and those after it. -/
theorem Rendered.resolve_eq_cut (mode : ElisionMode) {rendered : List Rendered} {r : Rendered}
    (h : rendered[i]? = some r) :
    resolve mode rendered
      = resolve mode (rendered.take i) ++ r.kept mode ++ resolve mode (rendered.drop (i + 1)) := by
  obtain ⟨hi, rfl⟩ := List.getElem?_eq_some_iff.mp h
  have hcut : rendered = rendered.take i ++ rendered[i] :: rendered.drop (i + 1) := by
    rw [← List.drop_eq_getElem_cons hi, List.take_append_drop]
  unfold resolve
  conv => lhs; rw [hcut]
  rw [List.map_append, List.map_cons, String.join_append, String.join_cons, String.append_assoc]

/-- Replacing one segment changes its part of the text only. -/
theorem Rendered.resolve_set (mode : ElisionMode) {rendered : List Rendered} (new : Rendered)
    (hi : i < rendered.length) :
    resolve mode (rendered.set i new)
      = resolve mode (rendered.take i) ++ new.kept mode
        ++ resolve mode (rendered.drop (i + 1)) := by
  rw [resolve_eq_cut mode (List.getElem?_set_self hi), List.take_set_of_le (Nat.le_refl i),
    List.drop_set_of_lt (Nat.lt_succ_self i)]

/-- One text for another leaves all blocks as they are. -/
theorem Rendered.getElem?_set_text {rendered : List Rendered} {old : String}
    (h : rendered[i]? = some (.text old)) (new : String) (j : Nat) (body : String)
    (skipped : Bool) :
    (rendered.set i (.text new))[j]? = some (.block body skipped)
      ↔ rendered[j]? = some (.block body skipped) := by
  by_cases hji : j = i
  · rw [hji, List.getElem?_set_self (List.getElem?_eq_some_iff.mp h).1, h]
    simp
  · rw [List.getElem?_set_ne (Ne.symm hji)]

/-- A marker in a block is held by a block, one outside by a segment that it is. -/
theorem Template.segment_of_placement {s : Segment} {m : Marker} {inBlock : Bool}
    (hs : t.segments[i]? = some s) (hholds : t.Holds i k)
    (hplace : t.placements[k]? = some (m, inBlock)) :
    if inBlock then ∃ pieces, s = .block pieces else s = .piece (.marker m) := by
  rw [getElem?_placements hs hholds] at hplace
  have hmem := List.mem_of_getElem? hplace
  -- The listing shows the flag of the segment beside each of its markers.
  cases s with
  | block pieces =>
    obtain ⟨m', -, heq⟩ := List.mem_map.mp hmem
    rw [Prod.mk.injEq] at heq
    rw [if_pos heq.2.symm]
    exact ⟨pieces, rfl⟩
  | piece p =>
    obtain ⟨m', hm', heq⟩ := List.mem_map.mp hmem
    rw [Prod.mk.injEq] at heq
    rw [← heq.2, if_neg Bool.false_ne_true, ← heq.1]
    cases p with
    | text content => exact absurd hm' (by simp [Piece.marker?])
    | marker m => rw [show m' = m by simpa [Piece.marker?] using hm']

open Rendered in
/-- **A skip touches its own block only.** Say substituting succeeds with no argument missing, and
argument `k` is replaced by the skip sentinel. Then substituting succeeds again and one segment
changes, the one that holds marker `k`. If the listing of the template says that the marker is in a
block, this segment is a block, it is skipped now, and what the structural mode makes of all
segments loses the body of that block, if it was kept, and nothing else. If the listing says that
the marker is in no block, the segment is the marker, its text becomes `NULL`, and all blocks stay
as they were. -/
theorem substituted_set_skip {rendered : List Rendered}
    (hcount : t.placeholderCount ≤ arguments.length) (hk : k < t.placeholderCount)
    (hrun : t.substituted escape strict arguments = .ok rendered) :
    ∃ (i : Nat) (new : Rendered), t.Holds i k
      ∧ t.substituted escape strict (arguments.set k .skip) = .ok (rendered.set i new)
      ∧ ((∃ m pieces body body' skipped, t.placements[k]? = some (m, true)
            ∧ t.segments[i]? = some (.block pieces)
            ∧ rendered[i]? = some (.block body skipped) ∧ new = .block body' true
            ∧ resolve .structural rendered
              = resolve .structural (rendered.take i) ++ (if skipped then "" else body)
                ++ resolve .structural (rendered.drop (i + 1))
            ∧ resolve .structural (rendered.set i new)
              = resolve .structural (rendered.take i)
                ++ resolve .structural (rendered.drop (i + 1)))
        ∨ ∃ m old, t.placements[k]? = some (m, false)
            ∧ t.segments[i]? = some (.piece (.marker m))
            ∧ rendered[i]? = some (.text old) ∧ new = .text "NULL"
            ∧ ∀ (j : Nat) body skipped, (rendered.set i new)[j]? = some (.block body skipped)
              ↔ rendered[j]? = some (.block body skipped)) := by
  obtain ⟨answer, hanswers, rfl⟩ := Template.exists_answers_of_substituted hrun
  obtain ⟨i, s, hs, hholds⟩ := Template.exists_holds hk
  have hrun' := Template.substituted_of_answers (Template.answers_set_skip hcount hanswers k)
  rw [Template.fill_update hs hholds] at hrun'
  have hold := Template.getElem?_fill_of_segment hs answer
  have hi : i < (t.fill answer).length := (List.getElem?_eq_some_iff.mp hold).1
  have hplaced : k < t.placements.length := by
    rwa [Template.placeholderCount, Template.markers, List.length_map] at hk
  obtain ⟨⟨m, inBlock⟩, hplace⟩ : ∃ placement, t.placements[k]? = some placement :=
    ⟨_, List.getElem?_eq_getElem hplaced⟩
  -- The listing and the segments agree on whether the marker is in a block.
  have hsegment := Template.segment_of_placement hs hholds hplace
  refine ⟨i, _, hholds, hrun', ?_⟩
  cases inBlock with
  | true =>
    left
    obtain ⟨pieces, rfl⟩ : ∃ pieces, s = .block pieces := by simpa using hsegment
    have hnew := Template.fill_update_block hs hholds answer nullText
    refine ⟨m, pieces, _, _, _, hplace, hs, hold, hnew, ?_, ?_⟩
    · exact Rendered.resolve_eq_cut .structural hold
    · rw [Rendered.resolve_set .structural _ hi, hnew]
      simp [Rendered.kept, ElisionMode.drops]
  | false =>
    right
    obtain rfl : s = .piece (.marker m) := by simpa using hsegment
    have hnew := Template.fill_update_marker hs hholds answer (nullText, true)
    refine ⟨m, _, hplace, hs, hold, hnew, ?_⟩
    rw [hnew]
    exact Rendered.getElem?_set_text hold nullText

/-- The second argument of a block of two is skipped. -/
theorem substituted_set_skip_block :
    (Template.parse "x \x7b?d, ?\x7d ?").placeholderCount ≤ [Value.int 1, .text "a", .int 2].length
      ∧ 1 < (Template.parse "x \x7b?d, ?\x7d ?").placeholderCount
      ∧ (Template.parse "x \x7b?d, ?\x7d ?").substituted EscapingMode.mysql.escaper true
          [.int 1, .text "a", .int 2]
        = .ok [.text "x ", .block "1, 'a'" false, .text " ", .text "2"]
      ∧ ∃ (i : Nat) (new : Rendered), (Template.parse "x \x7b?d, ?\x7d ?").Holds i 1
        ∧ (Template.parse "x \x7b?d, ?\x7d ?").substituted EscapingMode.mysql.escaper true
            ([Value.int 1, .text "a", .int 2].set 1 .skip)
          = .ok ([.text "x ", .block "1, 'a'" false, .text " ", .text "2"].set i new)
        ∧ Rendered.resolve .structural
            ([.text "x ", .block "1, 'a'" false, .text " ", .text "2"].set i new) = "x  2" := by
  have hcount : (Template.parse "x \x7b?d, ?\x7d ?").placeholderCount
      ≤ [Value.int 1, .text "a", .int 2].length := by decide +kernel
  have hk : 1 < (Template.parse "x \x7b?d, ?\x7d ?").placeholderCount := by decide +kernel
  have hrun : (Template.parse "x \x7b?d, ?\x7d ?").substituted EscapingMode.mysql.escaper true
      [.int 1, .text "a", .int 2]
      = .ok [.text "x ", .block "1, 'a'" false, .text " ", .text "2"] := by decide +kernel
  have hskipped : (Template.parse "x \x7b?d, ?\x7d ?").substituted EscapingMode.mysql.escaper true
      [.int 1, .skip, .int 2]
      = .ok [.text "x ", .block "1, NULL" true, .text " ", .text "2"] := by decide +kernel
  -- The new rendering is the one that is computed, since a run has one result.
  obtain ⟨i, new, hholds, hrun', -⟩ := substituted_set_skip hcount hk hrun
  refine ⟨hcount, hk, hrun, i, new, hholds, hrun', ?_⟩
  rw [← Except.ok.inj (hskipped.symm.trans hrun')]
  decide +kernel

/-! ## Arguments that a dropped block hides -/

/-- One of the markers of segment `i` gets the skip sentinel; a missing argument counts as one. -/
def Template.ReceivesSkip (t : Template) (arguments : List Value) (i : Nat) : Prop :=
  ∃ k, t.Holds i k ∧ (argumentAt arguments k).isSkip = true

/-- The answer to a marker tells whether its argument is the skip sentinel. -/
theorem Template.answer_snd (h : (Cursor.start arguments strict).Answers escape t.markers answer)
    (hk : k < t.markers.length) : (answer k).2 = (argumentAt arguments k).isSkip := by
  have hreply := h k _ (List.getElem?_eq_getElem hk)
  simp only [Cursor.start, Nat.zero_add] at hreply
  exact (Cursor.eq_of_reply_ok hreply).2

/-- The same argument is given the same answer, whatever else is in the lists. -/
theorem Template.answer_congr {arguments' : List Value} {answer' : Nat → String × Bool}
    (h : (Cursor.start arguments strict).Answers escape t.markers answer)
    (h' : (Cursor.start arguments' strict).Answers escape t.markers answer')
    (hk : k < t.markers.length) (hsame : argumentAt arguments k = argumentAt arguments' k) :
    answer k = answer' k := by
  have hreply := h k _ (List.getElem?_eq_getElem hk)
  have hreply' := h' k _ (List.getElem?_eq_getElem hk)
  simp only [Cursor.start, Nat.zero_add] at hreply hreply'
  obtain ⟨hformat, hskip⟩ := Cursor.eq_of_reply_ok hreply
  obtain ⟨hformat', hskip'⟩ := Cursor.eq_of_reply_ok hreply'
  rw [← hsame] at hformat' hskip'
  exact Prod.ext (Except.ok.inj (hformat.symm.trans hformat')) (hskip.trans hskip'.symm)

/-- A filled block is skipped exactly if one of its markers receives the skip sentinel. -/
theorem Template.filledSkip_iff_receivesSkip {pieces : List Piece}
    (h : (Cursor.start arguments strict).Answers escape t.markers answer)
    (hs : t.segments[i]? = some (.block pieces)) :
    Piece.filledSkip answer (t.firstMarker i) pieces = true ↔ t.ReceivesSkip arguments i := by
  rw [filledSkip_iff_holds hs]
  constructor
  · rintro ⟨k, hholds, hskip⟩
    exact ⟨k, hholds, by rwa [answer_snd h hholds.lt_length] at hskip⟩
  · rintro ⟨k, hholds, hskip⟩
    exact ⟨k, hholds, by rwa [answer_snd h hholds.lt_length]⟩

/-- Nothing is kept of a block that receives the skip sentinel. -/
theorem Template.kept_of_receivesSkip {pieces : List Piece}
    (h : (Cursor.start arguments strict).Answers escape t.markers answer)
    (hs : t.segments[i]? = some (.block pieces)) (hskip : t.ReceivesSkip arguments i) :
    ((Segment.block pieces).fill answer (t.firstMarker i)).kept .structural = "" := by
  rw [Segment.fill, (filledSkip_iff_receivesSkip h hs).mpr hskip]
  rfl

/-- A segment whose markers get the same arguments in two runs is filled alike. -/
theorem Template.fill_eq_of_agree {arguments' : List Value} {answer' : Nat → String × Bool}
    {s : Segment} (h : (Cursor.start arguments strict).Answers escape t.markers answer)
    (h' : (Cursor.start arguments' strict).Answers escape t.markers answer')
    (hs : t.segments[i]? = some s)
    (hsame : ∀ k, t.Holds i k → argumentAt arguments k = argumentAt arguments' k) :
    s.fill answer (t.firstMarker i) = s.fill answer' (t.firstMarker i) := by
  apply fill_congr_of_holds hs
  intro k hholds
  exact answer_congr h h' hholds.lt_length (hsame k hholds)

/-- **A dropped block hides its arguments.** In the structural mode, compile a template with two
argument lists. If the same blocks get a skip sentinel from both, at whatever markers of theirs, and
the lists agree at the markers outside these blocks, then the same SQL is made of both. What the
lists have inside the dropped blocks and beyond the last marker plays no part in it. -/
theorem compile_eq_of_agree {arguments' : List Value} {sql sql' : String}
    (hcompile : t.compile escape ⟨.structural, strict⟩ arguments = .ok sql)
    (hcompile' : t.compile escape ⟨.structural, strict⟩ arguments' = .ok sql')
    (hskips : ∀ i pieces, t.segments[i]? = some (.block pieces) →
      (t.ReceivesSkip arguments i ↔ t.ReceivesSkip arguments' i))
    (hagree : ∀ k < t.placeholderCount,
      (∀ i pieces, t.segments[i]? = some (.block pieces) → t.Holds i k →
        ¬ t.ReceivesSkip arguments i) →
      argumentAt arguments k = argumentAt arguments' k) :
    sql = sql' := by
  obtain ⟨answer, hanswers, rfl⟩ := Template.exists_fill_of_compile hcompile
  obtain ⟨answer', hanswers', rfl⟩ := Template.exists_fill_of_compile hcompile'
  -- It is enough to compare what is kept of each segment. One that is dropped leaves nothing in
  -- either run, whatever its body; all others are filled alike.
  unfold Rendered.resolve
  congr 1
  apply List.ext_getElem?
  intro i
  rw [List.getElem?_map, List.getElem?_map, Template.getElem?_fill, Template.getElem?_fill]
  cases hs : t.segments[i]? with
  | none => rfl
  | some s =>
    rw [Option.map_some, Option.map_some, Option.map_some, Option.map_some, Option.some.injEq]
    by_cases hskip : ∃ pieces, s = .block pieces ∧ t.ReceivesSkip arguments i
    · obtain ⟨pieces, rfl, hskip⟩ := hskip
      have hskip' : t.ReceivesSkip arguments' i := (hskips i pieces hs).mp hskip
      rw [Template.kept_of_receivesSkip hanswers hs hskip,
        Template.kept_of_receivesSkip hanswers' hs hskip']
    · rw [Template.fill_eq_of_agree hanswers hanswers' hs]
      intro k hholds
      apply hagree k hholds.lt_length
      -- No other segment holds the marker, so none that is dropped does.
      intro j pieces hj hj' hreceives
      obtain rfl : i = j := hholds.unique hj'
      exact hskip ⟨pieces, Option.some.inj (hs.symm.trans hj), hreceives⟩

/-- The two lists skip at different markers of the block, and one of them is longer. -/
theorem compile_eq_of_agree_block :
    ∃ sql sql', (Template.parse "\x7b?d ?\x7d ?").compile EscapingMode.mysql.escaper
          ⟨.structural, false⟩ [.skip, .text "a", .int 3] = .ok sql
      ∧ (Template.parse "\x7b?d ?\x7d ?").compile EscapingMode.mysql.escaper
          ⟨.structural, false⟩ [.int 5, .skip, .int 3, .null] = .ok sql'
      ∧ (∀ i pieces, (Template.parse "\x7b?d ?\x7d ?").segments[i]? = some (.block pieces) →
          ((Template.parse "\x7b?d ?\x7d ?").ReceivesSkip [.skip, .text "a", .int 3] i
            ↔ (Template.parse "\x7b?d ?\x7d ?").ReceivesSkip [.int 5, .skip, .int 3, .null] i))
      ∧ (∀ k < (Template.parse "\x7b?d ?\x7d ?").placeholderCount,
          (∀ i pieces, (Template.parse "\x7b?d ?\x7d ?").segments[i]? = some (.block pieces) →
            (Template.parse "\x7b?d ?\x7d ?").Holds i k →
            ¬ (Template.parse "\x7b?d ?\x7d ?").ReceivesSkip [.skip, .text "a", .int 3] i) →
          argumentAt [.skip, .text "a", .int 3] k = argumentAt [.int 5, .skip, .int 3, .null] k)
      ∧ sql = sql' := by
  have hcompile : (Template.parse "\x7b?d ?\x7d ?").compile EscapingMode.mysql.escaper
      ⟨.structural, false⟩ [.skip, .text "a", .int 3] = .ok " 3" := by decide +kernel
  have hcompile' : (Template.parse "\x7b?d ?\x7d ?").compile EscapingMode.mysql.escaper
      ⟨.structural, false⟩ [.int 5, .skip, .int 3, .null] = .ok " 3" := by decide +kernel
  -- Markers `0` and `1` stand in the block, so either list has it dropped.
  have hblock : (Template.parse "\x7b?d ?\x7d ?").ReceivesSkip [.skip, .text "a", .int 3] 0 :=
    ⟨0, by decide +kernel, rfl⟩
  have hblock' :
      (Template.parse "\x7b?d ?\x7d ?").ReceivesSkip [.int 5, .skip, .int 3, .null] 0 :=
    ⟨1, by decide +kernel, rfl⟩
  have hsegments : (Template.parse "\x7b?d ?\x7d ?").segments
      = [.block [.marker .integer, .text " ", .marker .scalar], .piece (.text " "),
        .piece (.marker .scalar)] := by decide +kernel
  have hskips : ∀ i pieces, (Template.parse "\x7b?d ?\x7d ?").segments[i]? = some (.block pieces) →
      ((Template.parse "\x7b?d ?\x7d ?").ReceivesSkip [.skip, .text "a", .int 3] i
        ↔ (Template.parse "\x7b?d ?\x7d ?").ReceivesSkip [.int 5, .skip, .int 3, .null] i) := by
    intro i pieces hi
    rw [hsegments] at hi
    obtain rfl : i = 0 := by
      rcases i with _ | _ | _ | i <;> simp at hi ⊢
    exact ⟨fun _ => hblock', fun _ => hblock⟩
  have hagree : ∀ k < (Template.parse "\x7b?d ?\x7d ?").placeholderCount,
      (∀ i pieces, (Template.parse "\x7b?d ?\x7d ?").segments[i]? = some (.block pieces) →
        (Template.parse "\x7b?d ?\x7d ?").Holds i k →
        ¬ (Template.parse "\x7b?d ?\x7d ?").ReceivesSkip [.skip, .text "a", .int 3] i) →
      argumentAt [.skip, .text "a", .int 3] k = argumentAt [.int 5, .skip, .int 3, .null] k := by
    intro k hk hnot
    have hcount : (Template.parse "\x7b?d ?\x7d ?").placeholderCount = 3 := by decide +kernel
    have hfirst : (Template.parse "\x7b?d ?\x7d ?").segments[0]?
        = some (.block [.marker .integer, .text " ", .marker .scalar]) := by rw [hsegments]; rfl
    rw [hcount] at hk
    -- The first two markers are hidden by the block, and the lists agree at the third.
    rcases k with _ | _ | _ | k
    · exact absurd hblock (hnot 0 _ hfirst (by decide +kernel))
    · exact absurd hblock (hnot 0 _ hfirst (by decide +kernel))
    · rfl
    · omega
  exact ⟨_, _, hcompile, hcompile', hskips, hagree,
    compile_eq_of_agree hcompile hcompile' hskips hagree⟩

end SqlTemplate
