import SqlTemplate.Proofs.Substitution
import Mathlib.Order.Monotone.Basic
import Mathlib.Logic.Function.Basic

/-!
Which segment a marker belongs to, and what a filled segment depends on.

Markers are numbered through the whole template, and a segment holds the markers between the first
number of its own and the first number of the next segment (`Template.Holds`). So every marker is
held by one segment (`exists_holds`, `Holds.unique`). A segment with its markers replaced depends on
the answers to the markers that it holds and on no other (`Segment.fill_congr`); `getElem?_fill`
says that filling a template is filling each segment with its own.
-/

set_option autoImplicit false

namespace SqlTemplate

variable {answer answer' : Nat → String × Bool} {k : Nat}

/-! ## One segment -/

/-- Pieces are filled by the answers of their own markers only. -/
theorem Piece.fillAll_congr {pieces : List Piece}
    (h : ∀ j, k ≤ j → j < k + (pieces.flatMap markers).length → answer j = answer' j) :
    fillAll answer k pieces = fillAll answer' k pieces := by
  induction pieces generalizing k with
  | nil => rfl
  | cons p pieces ih =>
    cases p with
    | text content =>
      rw [fillAll_text, fillAll_text, ih h]
    | marker m =>
      have hlength : ((Piece.marker m :: pieces).flatMap markers).length
          = (pieces.flatMap markers).length + 1 := rfl
      rw [hlength] at h
      rw [fillAll_marker, fillAll_marker, h k (by omega) (by omega),
        ih fun j hle hlt => h j (by omega) (by omega)]

/-- Filled pieces are skipped exactly if one of their own markers is answered with the skip
sentinel. -/
theorem Piece.filledSkip_iff {pieces : List Piece} :
    filledSkip answer k pieces = true
      ↔ ∃ j, k ≤ j ∧ j < k + (pieces.flatMap markers).length ∧ (answer j).2 = true := by
  unfold filledSkip
  -- Each marker takes the next number, so the numbers move up along the pieces.
  induction pieces generalizing k with
  | nil =>
    constructor
    · intro h
      exact absurd h (by simp)
    · rintro ⟨j, hle, hlt, -⟩
      rw [List.flatMap_nil, List.length_nil] at hlt
      omega
  | cons p pieces ih =>
    cases p with
    | text content =>
      rw [fillAll_text, List.any_cons, Bool.false_or]
      exact ih
    | marker m =>
      have hlength : ((Piece.marker m :: pieces).flatMap markers).length
          = (pieces.flatMap markers).length + 1 := rfl
      rw [fillAll_marker, List.any_cons, Bool.or_eq_true, ih, hlength]
      constructor
      · rintro (hskip | ⟨j, hle, hlt, hskip⟩)
        · exact ⟨k, by omega, by omega, hskip⟩
        · exact ⟨j, by omega, by omega, hskip⟩
      · rintro ⟨j, hle, hlt, hskip⟩
        by_cases hj : j = k
        · exact Or.inl (hj ▸ hskip)
        · exact Or.inr ⟨j, by omega, by omega, hskip⟩

/-- A segment is filled by the answers of its own markers only. -/
theorem Segment.fill_congr {s : Segment}
    (h : ∀ j, k ≤ j → j < k + s.markers.length → answer j = answer' j) :
    s.fill answer k = s.fill answer' k := by
  cases s with
  | piece p =>
    cases p with
    | text content => rfl
    | marker m =>
      have hk : answer k = answer' k := h k (Nat.le_refl k) (Nat.lt_succ_self k)
      rw [fill, fill, Piece.fill, Piece.fill, hk]
  | block pieces =>
    rw [markers_block] at h
    rw [fill, fill, Piece.filledText, Piece.filledText, Piece.filledSkip, Piece.filledSkip,
      Piece.fillAll_congr h]

/-! ## Segments in a row -/

/-- A segment counts the markers of those before it. -/
theorem getElem?_mapFrom {α β : Type} (markers : α → List Marker) (f : Nat → α → β) (k : Nat)
    (as : List α) (i : Nat) :
    (mapFrom markers f k as)[i]?
      = as[i]?.map (f (k + ((as.take i).flatMap markers).length)) := by
  induction as generalizing k i with
  | nil => rfl
  | cons a as ih =>
    cases i with
    | zero => rfl
    | succ i =>
      rw [mapFrom, List.getElem?_cons_succ, List.getElem?_cons_succ, ih, List.take_succ_cons,
        List.flatMap_cons, List.length_append, Nat.add_assoc]

namespace Template

variable {t : Template} {i j : Nat} {s : Segment}

/-- The number of the first marker from segment `i` on. -/
def firstMarker (t : Template) (i : Nat) : Nat :=
  ((t.segments.take i).flatMap Segment.markers).length

/-- Segment `i` holds marker `k`. -/
def Holds (t : Template) (i k : Nat) : Prop :=
  t.firstMarker i ≤ k ∧ k < t.firstMarker (i + 1)

instance (i k : Nat) : Decidable (t.Holds i k) :=
  inferInstanceAs (Decidable (t.firstMarker i ≤ k ∧ k < t.firstMarker (i + 1)))

/-- The markers of the next segment start behind those of this one. -/
theorem firstMarker_succ (hs : t.segments[i]? = some s) :
    t.firstMarker (i + 1) = t.firstMarker i + s.markers.length := by
  unfold firstMarker
  rw [List.take_add_one, hs, List.flatMap_append, List.length_append]
  simp

/-- Later segments have later markers. -/
theorem firstMarker_mono (t : Template) : Monotone t.firstMarker := by
  apply monotone_nat_of_le_succ
  intro i
  unfold firstMarker
  rw [List.take_add_one, List.flatMap_append, List.length_append]
  exact Nat.le_add_right _ _

theorem firstMarker_length (t : Template) : t.firstMarker t.segments.length = t.markers.length := by
  rw [firstMarker, List.take_length, markers_eq_flatMap]

/-- A segment holds markers of the template only. -/
theorem Holds.lt_length (h : t.Holds i k) : k < t.markers.length := by
  have hle : t.firstMarker (i + 1) ≤ t.markers.length := by
    by_cases hi : i + 1 ≤ t.segments.length
    · rw [← firstMarker_length]
      exact firstMarker_mono t hi
    · rw [← firstMarker_length, firstMarker, firstMarker, List.take_of_length_le (by omega),
        List.take_length]
  exact Nat.lt_of_lt_of_le h.2 hle

/-- No two segments hold the same marker. -/
theorem Holds.unique (h : t.Holds i k) (h' : t.Holds j k) : i = j := by
  have hnot : ∀ {i j}, t.Holds i k → t.Holds j k → ¬ i < j := by
    intro i j h h' hlt
    have hmono : t.firstMarker (i + 1) ≤ t.firstMarker j := firstMarker_mono t hlt
    have := h.2
    have := h'.1
    omega
  have := hnot h h'
  have := hnot h' h
  omega

/-- Every marker is held by a segment. -/
theorem exists_holds (h : k < t.markers.length) :
    ∃ i s, t.segments[i]? = some s ∧ t.Holds i k := by
  -- The last segment whose first number is not past the marker.
  have hreach : ∀ n, k < t.firstMarker n → ∃ i < n, t.Holds i k := by
    intro n hn
    induction n with
    | zero => exact absurd hn (by simp [firstMarker])
    | succ n ih =>
      by_cases hlt : k < t.firstMarker n
      · obtain ⟨i, hi, hholds⟩ := ih hlt
        exact ⟨i, by omega, hholds⟩
      · exact ⟨n, by omega, by omega, hn⟩
  rw [← firstMarker_length] at h
  obtain ⟨i, hi, hholds⟩ := hreach _ h
  exact ⟨i, t.segments[i], List.getElem?_eq_getElem hi, hholds⟩

/-- The placements of a template are those of its segments. -/
theorem getElem?_placements (hs : t.segments[i]? = some s) (h : t.Holds i k) :
    t.placements[k]? = s.placements[k - t.firstMarker i]? := by
  have hlength : ∀ segments : List Segment,
      (segments.flatMap Segment.placements).length
        = (segments.flatMap Segment.markers).length := by
    intro segments
    rw [List.length_flatMap, List.length_flatMap]
    simp only [Segment.markers, List.length_map]
  have hi : i < t.segments.length := (List.getElem?_eq_some_iff.mp hs).1
  have hcut : t.segments = t.segments.take i ++ s :: t.segments.drop (i + 1) := by
    rw [← (List.getElem?_eq_some_iff.mp hs).2, ← List.drop_eq_getElem_cons hi,
      List.take_append_drop]
  have hfirst : ((t.segments.take i).flatMap Segment.placements).length = t.firstMarker i :=
    hlength _
  -- The place is neither before the segment's own placements nor after them.
  have hown : k - t.firstMarker i < s.placements.length := by
    have hlt := h.2
    have hle := h.1
    rw [firstMarker_succ hs, Segment.markers, List.length_map] at hlt
    omega
  unfold placements
  conv => lhs; rw [hcut]
  rw [List.flatMap_append, List.getElem?_append_right (by rw [hfirst]; exact h.1), hfirst,
    List.flatMap_cons, List.getElem?_append_left hown]

/-- Filling a template fills every segment with the answers to the markers that it holds. -/
theorem getElem?_fill (t : Template) (answer : Nat → String × Bool) (i : Nat) :
    (t.fill answer)[i]? = t.segments[i]?.map fun s => s.fill answer (t.firstMarker i) := by
  unfold fill Segment.fillAll
  rw [getElem?_mapFrom, Nat.zero_add]
  rfl

/-- A segment is filled from its first marker on. -/
theorem getElem?_fill_of_segment (hs : t.segments[i]? = some s) (answer : Nat → String × Bool) :
    (t.fill answer)[i]? = some (s.fill answer (t.firstMarker i)) := by
  rw [getElem?_fill, hs, Option.map_some]

/-- A segment is filled by the answers of the markers that it holds. -/
theorem fill_congr_of_holds (hs : t.segments[i]? = some s)
    (h : ∀ k, t.Holds i k → answer k = answer' k) :
    s.fill answer (t.firstMarker i) = s.fill answer' (t.firstMarker i) := by
  apply Segment.fill_congr
  intro j hle hlt
  apply h
  rw [← firstMarker_succ hs] at hlt
  exact ⟨hle, hlt⟩

/-- A filled block is skipped if one of the markers that it holds took the skip sentinel. -/
theorem filledSkip_iff_holds {pieces : List Piece} (hs : t.segments[i]? = some (.block pieces)) :
    Piece.filledSkip answer (t.firstMarker i) pieces = true
      ↔ ∃ k, t.Holds i k ∧ (answer k).2 = true := by
  have hsucc := firstMarker_succ hs
  rw [Segment.markers_block] at hsucc
  simp only [Piece.filledSkip_iff, Holds, hsucc, and_assoc]

end Template

end SqlTemplate
