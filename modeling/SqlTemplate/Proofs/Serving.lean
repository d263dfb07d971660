import SqlTemplate.Compile
import Mathlib.Data.Nat.Find

/-!
What a computation that takes arguments from a cursor does with the requests it makes.

Rendering a template is a computation that asks for one argument per marker, in template order, and
then only fills the answers in. `Serving.Asks` says this of any computation: with all markers
answered it ends with the answers filled in and the cursor past them; at the first marker that has
no answer it fails in the same way, and the cursor has counted that request too. The property is
kept by sequencing (`Asks.seq`), hence by going through a list (`Asks.mapM`), and that is all a
rendering is made of.

Answers are numbered by the place of the request in the argument list, so a filling is a function
of the answers and of the number of the first request.
-/

set_option autoImplicit false

namespace SqlTemplate

variable {α β γ : Type}

/-! ## Outcomes -/

namespace Serving

@[simp] theorem outcome_pure (a : α) (cursor : Cursor) :
    (pure a : Serving α).outcome cursor = (.ok a, cursor) := rfl

/-- Serving a value moves the cursor on, whether it succeeds or not. -/
@[simp] theorem outcome_next (cursor : Cursor) :
    next.outcome cursor = (cursor.current, cursor.advance) := rfl

@[simp] theorem outcome_ofResult (result : Except Error α) (cursor : Cursor) :
    (ofResult result).outcome cursor = (result, cursor) := rfl

/-- A success goes on from where the cursor is. -/
theorem outcome_bind_ok {action : Serving α} {cursor after : Cursor} {a : α}
    (f : α → Serving β) (h : action.outcome cursor = (.ok a, after)) :
    (action >>= f).outcome cursor = (f a).outcome after := by
  simp only [outcome] at h ⊢
  simp only [bind, ExceptT.bind, ExceptT.mk, StateT.bind, h, ExceptT.bindCont]

/-- A failure ends the computation and leaves the cursor where it is. -/
theorem outcome_bind_error {action : Serving α} {cursor after : Cursor} {e : Error}
    (f : α → Serving β) (h : action.outcome cursor = (.error e, after)) :
    (action >>= f).outcome cursor = (.error e, after) := by
  simp only [outcome] at h ⊢
  simp only [bind, ExceptT.bind, ExceptT.mk, StateT.bind, h, ExceptT.bindCont]
  rfl

end Serving

/-! ## Requests for a list of markers -/

namespace Cursor

/-- The cursor `n` places on. -/
def ahead (cursor : Cursor) (n : Nat) : Cursor :=
  { cursor with position := cursor.position + n }

@[simp] theorem ahead_zero (cursor : Cursor) : cursor.ahead 0 = cursor := rfl

/-- Moving on twice is moving on once, by both numbers. -/
@[simp] theorem ahead_ahead (cursor : Cursor) (m n : Nat) :
    (cursor.ahead m).ahead n = cursor.ahead (m + n) := by
  simp only [ahead, Nat.add_assoc]

@[simp] theorem position_ahead (cursor : Cursor) (n : Nat) :
    (cursor.ahead n).position = cursor.position + n := rfl

/-- What a marker gets at this place: the text that replaces it, and whether the argument was the
skip sentinel. -/
def reply (escape : Escaper) (cursor : Cursor) (marker : Marker) :
    Except Error (String × Bool) := do
  let value ← cursor.current
  let written ← marker.format escape value
  return (written, value.isSkip)

/-- Without a value there is nothing to format. -/
theorem reply_of_error {escape : Escaper} {cursor : Cursor} {marker : Marker} {e : Error}
    (h : cursor.current = .error e) : cursor.reply escape marker = .error e := by
  rw [reply, h]
  rfl

/-- A value that is served is formatted for its marker, and tells whether it is the skip sentinel.
-/
theorem reply_of_ok {escape : Escaper} {cursor : Cursor} {marker : Marker} {value : Value}
    (h : cursor.current = .ok value) :
    cursor.reply escape marker
      = (marker.format escape value).map fun written => (written, value.isSkip) := by
  rw [reply, h]
  cases hw : marker.format escape value <;>
    simp only [hw, bind, Except.bind, Except.map, pure, Except.pure]

/-- All markers get their answers, the first one at the cursor. -/
def Answers (escape : Escaper) (cursor : Cursor) (markers : List Marker)
    (answer : Nat → String × Bool) : Prop :=
  ∀ i m, markers[i]? = some m →
    (cursor.ahead i).reply escape m = .ok (answer (cursor.position + i))

/-- Marker `i` is the first that gets no answer. -/
def Refuses (escape : Escaper) (cursor : Cursor) (markers : List Marker) (i : Nat) (e : Error) :
    Prop :=
  (∃ m, markers[i]? = some m ∧ (cursor.ahead i).reply escape m = .error e)
    ∧ ∀ j m, j < i → markers[j]? = some m → ∃ a, (cursor.ahead j).reply escape m = .ok a

variable {escape : Escaper} {cursor : Cursor} {markers later : List Marker} {marker : Marker}
  {answer : Nat → String × Bool} {i : Nat} {e : Error}

theorem not_refuses_nil : ¬ cursor.Refuses escape [] i e := by
  rintro ⟨⟨m, h, -⟩, -⟩
  rw [List.getElem?_nil] at h
  exact absurd h (by simp)

/-- Requests that can be answered one by one have answers that can be written down. -/
theorem exists_answers
    (h : ∀ i m, markers[i]? = some m → ∃ a, (cursor.ahead i).reply escape m = .ok a) :
    ∃ answer, cursor.Answers escape markers answer := by
  -- Answers are numbered from the cursor on, so the number of a marker gives back its place.
  refine ⟨fun k => ((markers[k - cursor.position]?).elim ("", false) fun m =>
    (((cursor.ahead (k - cursor.position)).reply escape m).toOption.getD ("", false))), ?_⟩
  intro i m hm
  obtain ⟨a, ha⟩ := h i m hm
  simp only [Nat.add_sub_cancel_left, hm, Option.elim_some, ha, Except.toOption, Option.getD_some]

/-- A list of requests is answered, or there is a first one that is not. -/
theorem answers_or_refuses (escape : Escaper) (cursor : Cursor) (markers : List Marker) :
    (∃ answer, cursor.Answers escape markers answer)
      ∨ ∃ i e, cursor.Refuses escape markers i e := by
  by_cases h : ∃ i, ∃ m e, markers[i]? = some m ∧ (cursor.ahead i).reply escape m = .error e
  · right
    classical
    -- The least request without an answer is the first one that fails.
    obtain ⟨m, e, hm, he⟩ := Nat.find_spec h
    refine ⟨Nat.find h, e, ⟨m, hm, he⟩, ?_⟩
    intro j m' hj hm'
    cases hr : (cursor.ahead j).reply escape m' with
    | ok a => exact ⟨a, rfl⟩
    | error e' => exact absurd ⟨m', e', hm', hr⟩ (Nat.find_min h hj)
  · left
    refine exists_answers fun i m hm => ?_
    cases hr : (cursor.ahead i).reply escape m with
    | ok a => exact ⟨a, rfl⟩
    | error e => exact absurd ⟨i, m, e, hm, hr⟩ h

/-- Answering two lists of requests in a row is answering each from where it starts. -/
theorem answers_append :
    cursor.Answers escape (markers ++ later) answer
      ↔ cursor.Answers escape markers answer
        ∧ (cursor.ahead markers.length).Answers escape later answer := by
  constructor
  · intro h
    refine ⟨fun i m hm => ?_, fun i m hm => ?_⟩
    · have hi : i < markers.length := (List.getElem?_eq_some_iff.mp hm).1
      exact h i m (by rw [List.getElem?_append_left hi, hm])
    · have := h (markers.length + i) m
        (by rw [List.getElem?_append_right (by omega)]; simpa using hm)
      rwa [ahead_ahead, position_ahead, Nat.add_assoc]
  · rintro ⟨h, hl⟩ i m hm
    rcases Nat.lt_or_ge i markers.length with hi | hi
    · rw [List.getElem?_append_left hi] at hm
      exact h i m hm
    · rw [List.getElem?_append_right hi] at hm
      have := hl (i - markers.length) m hm
      rwa [ahead_ahead, position_ahead, Nat.add_assoc, Nat.add_sub_cancel' hi] at this

/-- The first refusal in two lists of requests is the first list's, or comes after all its
answers. -/
theorem refuses_append (h : cursor.Refuses escape (markers ++ later) i e) :
    cursor.Refuses escape markers i e
      ∨ ∃ j, i = markers.length + j ∧ (∃ answer, cursor.Answers escape markers answer)
        ∧ (cursor.ahead markers.length).Refuses escape later j e := by
  obtain ⟨⟨m, hm, he⟩, hbefore⟩ := h
  -- The refusal comes while the first list is asked for, or after it.
  rcases Nat.lt_or_ge i markers.length with hi | hi
  · left
    rw [List.getElem?_append_left hi] at hm
    refine ⟨⟨m, hm, he⟩, fun j m' hj hm' => hbefore j m' hj ?_⟩
    rw [List.getElem?_append_left (by omega), hm']
  · right
    obtain ⟨j, rfl⟩ := Nat.exists_eq_add_of_le hi
    rw [List.getElem?_append_right hi, Nat.add_sub_cancel_left] at hm
    refine ⟨j, rfl, exists_answers fun k m' hm' => ?_, ⟨m, hm, by rwa [ahead_ahead]⟩, ?_⟩
    · have hk : k < markers.length := (List.getElem?_eq_some_iff.mp hm').1
      exact hbefore k m' (by omega) (by rw [List.getElem?_append_left hk, hm'])
    · intro k m' hk hm'
      have := hbefore (markers.length + k) m' (by omega)
        (by rw [List.getElem?_append_right (by omega)]; simpa using hm')
      rwa [ahead_ahead]

end Cursor

/-! ## Computations that ask for markers -/

namespace Serving

/-- The computation asks for the markers one after the other and then fills the answers in. -/
structure Asks (escape : Escaper) (markers : List Marker)
    (fill : (Nat → String × Bool) → Nat → α) (action : Serving α) : Prop where
  answered : ∀ cursor answer, cursor.Answers escape markers answer →
    action.outcome cursor = (.ok (fill answer cursor.position), cursor.ahead markers.length)
  refused : ∀ cursor i e, cursor.Refuses escape markers i e →
    action.outcome cursor = (.error e, cursor.ahead (i + 1))

variable {escape : Escaper} {markers later : List Marker}

theorem Asks.pure (a : α) : Asks escape [] (fun _ _ => a) (pure a) where
  answered := fun _ _ _ => rfl
  refused := fun _ _ _ h => absurd h Cursor.not_refuses_nil

/-- A marker asks once, and is filled with the answer. -/
theorem Asks.marker (m : Marker) :
    Asks escape [m] (fun answer k => answer k) (Piece.render escape (.marker m)) := by
  have houtcome : ∀ cursor : Cursor,
      (Piece.render escape (.marker m)).outcome cursor
        = (cursor.reply escape m, cursor.advance) := by
    intro cursor
    rw [Piece.render]
    -- A request moves the cursor whether it is answered or not.
    cases hv : cursor.current with
    | error e =>
      rw [Cursor.reply_of_error hv]
      exact outcome_bind_error _ (by rw [outcome_next, hv])
    | ok value =>
      have hnext : next.outcome cursor = (.ok value, cursor.advance) := by rw [outcome_next, hv]
      rw [Cursor.reply_of_ok hv, outcome_bind_ok _ hnext]
      cases m.format escape value with
      | error e => exact outcome_bind_error _ (outcome_ofResult _ _)
      | ok written => exact outcome_bind_ok _ (outcome_ofResult _ _)
  constructor
  · intro cursor answer h
    rw [houtcome, ← Cursor.ahead_zero cursor, h 0 m rfl]
    rfl
  · rintro cursor i e ⟨⟨m', hm, he⟩, -⟩
    obtain ⟨rfl, rfl⟩ : i = 0 ∧ m' = m := by
      cases i with
      | zero => exact ⟨rfl, by simpa using hm.symm⟩
      | succ i => simp at hm
    rw [houtcome, ← Cursor.ahead_zero cursor, he]
    rfl

/-- One computation after another asks for the markers of both, the second with later numbers. -/
theorem Asks.seq {fill : (Nat → String × Bool) → Nat → α} {fill' : (Nat → String × Bool) → Nat → β}
    {action : Serving α} {action' : Serving β} (combine : α → β → γ)
    (h : Asks escape markers fill action) (h' : Asks escape later fill' action') :
    Asks escape (markers ++ later)
      (fun answer k => combine (fill answer k) (fill' answer (k + markers.length)))
      (do let a ← action; let b ← action'; return combine a b) := by
  constructor
  · intro cursor answer hall
    obtain ⟨hfirst, hsecond⟩ := Cursor.answers_append.mp hall
    rw [outcome_bind_ok _ (h.answered _ _ hfirst), outcome_bind_ok _ (h'.answered _ _ hsecond),
      outcome_pure, Cursor.ahead_ahead, List.length_append, Cursor.position_ahead]
  · intro cursor i e href
    -- A refusal in the second list comes after all answers of the first.
    rcases Cursor.refuses_append href with hfirst | ⟨j, rfl, ⟨answer, hfirst⟩, hsecond⟩
    · exact outcome_bind_error _ (h.refused _ _ _ hfirst)
    · rw [outcome_bind_ok _ (h.answered _ _ hfirst),
        outcome_bind_error _ (h'.refused _ _ _ hsecond), Cursor.ahead_ahead, Nat.add_assoc]

/-- Changing what is filled in changes no question. -/
theorem Asks.map {fill : (Nat → String × Bool) → Nat → α} {action : Serving α} (f : α → β)
    (h : Asks escape markers fill action) :
    Asks escape markers (fun answer k => f (fill answer k)) (do let a ← action; return f a) := by
  constructor
  · intro cursor answer hall
    rw [outcome_bind_ok _ (h.answered _ _ hall), outcome_pure]
  · intro cursor i e href
    exact outcome_bind_error _ (h.refused _ _ _ href)

end Serving

/-! ## Going through a list -/

/-- A function along a list, each element with the number of its first marker. -/
def mapFrom (markers : α → List Marker) (f : Nat → α → β) : Nat → List α → List β
  | _, [] => []
  | k, a :: rest => f k a :: mapFrom markers f (k + (markers a).length) rest

/-- The second part of a list starts with the markers behind those of the first. -/
theorem mapFrom_append (markers : α → List Marker) (f : Nat → α → β) (k : Nat) (as bs : List α) :
    mapFrom markers f k (as ++ bs)
      = mapFrom markers f k as ++ mapFrom markers f (k + (as.flatMap markers).length) bs := by
  induction as generalizing k with
  | nil => rfl
  | cons a as ih =>
    rw [List.cons_append, mapFrom, mapFrom, ih, List.flatMap_cons, List.length_append,
      Nat.add_assoc, List.cons_append]

/-- Going through a list asks for the markers of all its elements. -/
theorem Serving.Asks.mapM {escape : Escaper} {markers : α → List Marker}
    {fill : (Nat → String × Bool) → Nat → α → β} {action : α → Serving β}
    (h : ∀ a, Asks escape (markers a) (fun answer k => fill answer k a) (action a)) (as : List α) :
    Asks escape (as.flatMap markers)
      (fun answer k => mapFrom markers (fill answer) k as)
      (as.mapM action) := by
  induction as with
  | nil => exact Asks.pure []
  | cons a as ih =>
    rw [List.mapM_cons, List.flatMap_cons]
    exact Asks.seq List.cons (h a) ih

end SqlTemplate
