import SqlTemplate.Proofs.Json.Nesting
import Mathlib.Data.List.Forall2

/-!
JSON texts as the items of an array.

Texts with commas between them and brackets around them read as the array of their trees, if none
of the trees nests too deep to have a container around it (`parse_array`).

For each text the reader goes through the same states as for the text alone, with the array below
all open containers (`State.within`). Where it would stand behind a complete tree, it stands before
the next comma or the closing bracket. Only the limit on open containers tells the two readings
apart, and for the text alone nesting bounds the open containers.
-/

set_option autoImplicit false

namespace SqlTemplate.Json

variable {items : List Json} {s s' : State} {frames : List Frame} {tree : Json} {c : Char}

/-! ## One more container below all others -/

/-- A state of reading a text, with an array around the text that has some items already. -/
def State.within (items : List Json) (s : State) : State :=
  match s.position with
  | .between (.nothing tree) => ⟨[.array (tree :: items)], .between .separator⟩
  | position => ⟨s.frames ++ [.array items], position⟩

theorem State.within_of_not_isDone {position : Position} (h : position.isDone = false)
    (items : List Json) (frames : List Frame) :
    State.within items ⟨frames, position⟩ = ⟨frames ++ [.array items], position⟩ := by
  unfold State.within
  split
  · rename_i tree hposition
    rw [show position = .between (.nothing tree) from hposition] at h
    exact absurd h (by simp [Position.isDone])
  · rfl

/-- A tree that is complete inside the array is its next item, if nothing else is open. -/
theorem complete_within (h : complete tree frames = some s) :
    complete tree (frames ++ [.array items]) = some (s.within items) := by
  unfold complete at h
  split at h
  · rw [← Option.some.inj h]
    rfl
  · rw [← Option.some.inj h]
    rfl
  · rw [← Option.some.inj h]
    rfl
  · exact absurd h (by simp)

theorem completeString_within {content : List Char} (h : completeString content frames = some s) :
    completeString content (frames ++ [.array items]) = some (s.within items) := by
  unfold completeString at h
  split at h
  · rw [← Option.some.inj h]
    rfl
  · rename_i hname
    rw [← complete_within h]
    cases frames with
    | nil => rfl
    | cons frame frames =>
      cases frame with
      | object members => exact absurd rfl (hname members frames)
      | _ => rfl

/-- A container opens inside the array too, if the limit leaves room for one more. -/
theorem openFrame_within {frame : Frame} {expected : Expected}
    (hexpected : Position.isDone (.between expected) = false)
    (h : openFrame frame frames expected = some s) (hn : s.nesting + 1 < nestingLimit) :
    openFrame frame (frames ++ [.array items]) expected = some (s.within items) := by
  unfold openFrame at h
  split_ifs at h
  obtain rfl := Option.some.inj h
  rw [State.nesting_of_not_isDone hexpected, openNesting] at hn
  unfold openFrame
  rw [if_pos, State.within_of_not_isDone hexpected, List.cons_append]
  rw [List.length_append, List.length_singleton]
  omega

/-- A container closes inside the array too. -/
theorem closeFrame_within (h : closeFrame c frames = some s) :
    closeFrame c (frames ++ [.array items]) = some (s.within items) := by
  unfold closeFrame at h
  split at h
  · split_ifs at h with hc
    rw [← complete_within h]
    exact if_pos hc
  · split_ifs at h with hc
    rw [← complete_within h]
    exact if_pos hc
  · exact absurd h (by simp)

/-- A comma goes the same way inside the array. -/
theorem afterComma_within (h : afterComma frames = some s) :
    afterComma (frames ++ [.array items]) = some (s.within items) := by
  unfold afterComma at h
  split at h
  · rw [← Option.some.inj h]
    rfl
  · rw [← Option.some.inj h]
    rfl
  · exact absurd h (by simp)

theorem Effect.apply_within {effect : Effect} (h : effect.apply frames = some s)
    (hn : s.nesting + 1 < nestingLimit) :
    effect.apply (frames ++ [.array items]) = some (s.within items) := by
  cases effect with
  | refuse => exact absurd h (by simp [apply])
  | move position hdone =>
    rw [← Option.some.inj h, State.within_of_not_isDone hdone]
    rfl
  | complete tree => exact complete_within h
  | completeString content => exact completeString_within h
  | openArray => exact openFrame_within rfl h hn
  | openObject => exact openFrame_within rfl h hn
  | close c => exact closeFrame_within h
  | comma => exact afterComma_within h

/-! ## Steps and runs below which an array is open -/

/-- A step between lexical units goes the same way inside the array. -/
theorem stepBetween_within {expected : Expected} (h : stepBetween frames expected c = some s)
    (hn : s.nesting + 1 < nestingLimit) :
    step (State.within items ⟨frames, .between expected⟩) c = some (s.within items) := by
  rcases nothing_or_not_isDone expected with ⟨tree, rfl⟩ | hdone
  · -- Behind a tree only blanks can be read, and they can be read before a comma too.
    obtain ⟨hblank, rfl⟩ := stepBetween_nothing h
    exact if_pos hblank
  · obtain ⟨effect, heffect⟩ := exists_effect_between hdone c
    rw [State.within_of_not_isDone hdone]
    rw [heffect] at h
    show stepBetween (frames ++ [.array items]) expected c = _
    rw [heffect]
    exact effect.apply_within h hn

/-- **A step is the same step with an array around the text.** -/
theorem step_within (h : step s c = some s') (hn : s'.nesting + 1 < nestingLimit) :
    step (s.within items) c = some (s'.within items) := by
  obtain ⟨frames, position⟩ := s
  rcases step_cases h with ⟨expected, rfl, h⟩ | ⟨content, fs, expected, rfl, hc, ht, h⟩ |
    ⟨hdone, effect, heffect⟩
  · exact stepBetween_within h hn
  · obtain ⟨numeral, hnumeral, hcomplete⟩ := Option.bind_eq_some_iff.mp ht
    rw [State.within_of_not_isDone rfl, step_number hc, completeNumber, hnumeral, Option.bind_some,
      complete_within hcomplete, Option.bind_some]
    exact stepBetween_within h hn
  · rw [State.within_of_not_isDone hdone, heffect]
    exact effect.apply_within ((heffect frames).symm.trans h) hn

/-- **A run goes the same way inside the array,** step by step. -/
theorem run_within {text : List Char} (h : run s text = some s')
    (hn : s'.nesting + 1 < nestingLimit) :
    run (s.within items) text = some (s'.within items) := by
  induction text generalizing s with
  | nil =>
    rw [← Option.some.inj h]
    rfl
  | cons c text ih =>
    rw [run_cons] at h
    obtain ⟨t, hstep, hrun⟩ := Option.bind_eq_some_iff.mp h
    have hle := State.nesting_le_of_run hrun
    rw [run_cons, step_within hstep (by omega), Option.bind_some]
    exact ih hrun

/-- Behind a text that reads as a tree, the array has the tree as one more item. -/
theorem step_within_of_finish (h : finish s = some tree) (hc : isNumberChar c = false) :
    step (s.within items) c = stepBetween [.array (tree :: items)] .separator c := by
  obtain ⟨frames, position⟩ := s
  unfold finish at h
  -- A text is done with a tree, or with a number that nothing has ended yet; the character ends it.
  split at h
  · rename_i t hposition
    obtain rfl : position = .between (.nothing t) := hposition
    rw [← Option.some.inj h]
    rfl
  · rename_i content hposition
    obtain rfl : position = .number content := hposition
    split at h
    · rename_i hnumber
      obtain ⟨numeral, hnumeral, hcomplete⟩ := Option.bind_eq_some_iff.mp hnumber
      rw [State.within_of_not_isDone rfl, step_number hc, completeNumber, hnumeral,
        Option.bind_some, complete_within hcomplete, ← Option.some.inj h]
      rfl
    · exact absurd h (by simp)
  · exact absurd h (by simp)

/-! ## Items and arrays -/

/-- An item that is followed by a character that belongs to no number. -/
theorem run_item {text : String} (h : parse? text = some tree)
    (hn : tree.nesting + 1 < nestingLimit) (hc : isNumberChar c = false) (rest : List Char) :
    run ⟨[.array items], .between .value⟩ (text.toList ++ c :: rest)
      = (stepBetween [.array (tree :: items)] .separator c).bind (run · rest) := by
  obtain ⟨s, hrun, hfinish⟩ := Option.bind_eq_some_iff.mp h
  have hle := State.nesting_le_of_finish hfinish
  have hwithin : run (State.within items .initial) text.toList = some (s.within items) :=
    run_within hrun (by omega)
  have hinitial : State.within items .initial = ⟨[.array items], .between .value⟩ := rfl
  rw [run_append, ← hinitial, hwithin, Option.bind_some, run_cons,
    step_within_of_finish hfinish hc]

/-- All items that are left, and the closing bracket. -/
theorem run_items {text : String} {texts : List String} {trees : List Json}
    (h : List.Forall₂ (fun text tree => parse? text = some tree ∧ tree.nesting + 1 < nestingLimit)
      (text :: texts) trees) (items : List Json) :
    run ⟨[.array items], .between .value⟩
        ((String.intercalate "," (text :: texts)).toList ++ [']'])
      = some ⟨[], .between (.nothing (.array (items.reverse ++ trees)))⟩ := by
  -- The induction is on the texts that are left; the trees before them are in the frame.
  induction texts generalizing text trees items with
  | nil =>
    obtain ⟨tree, trees, ⟨hparse, hn⟩, hnil, rfl⟩ := List.forall₂_cons_left_iff.mp h
    rw [List.forall₂_nil_left_iff] at hnil
    rw [String.intercalate_singleton, run_item hparse hn rfl, hnil]
    simp [stepBetween, isBlank, closeFrame, complete, run]
  | cons next texts ih =>
    obtain ⟨tree, trees, ⟨hparse, hn⟩, hrest, rfl⟩ := List.forall₂_cons_left_iff.mp h
    have hcomma : stepBetween [.array (tree :: items)] .separator ','
        = some ⟨[.array (tree :: items)], .between .value⟩ := rfl
    have htext : (String.intercalate "," (text :: next :: texts)).toList ++ [']']
        = text.toList ++ ',' :: ((String.intercalate "," (next :: texts)).toList ++ [']']) := by
      rw [String.intercalate_cons_cons, String.toList_append, String.toList_append,
        List.append_assoc, List.append_assoc]
      rfl
    rw [htext, run_item hparse hn rfl, hcomma, Option.bind_some, ih hrest, List.reverse_cons,
      List.append_assoc, List.singleton_append]

/-- Where an item is due instead of the end of the array, the reader goes the same way. -/
theorem run_firstItem {text : List Char} (h : run ⟨frames, .between .value⟩ text = some s)
    (hs : s.position ≠ .between .value) :
    run ⟨frames, .between .firstItem⟩ text = some s := by
  induction text with
  | nil =>
    rw [← Option.some.inj h] at hs
    exact absurd rfl hs
  | cons c text ih =>
    rw [run_cons] at h ⊢
    obtain ⟨t, hstep, hrun⟩ := Option.bind_eq_some_iff.mp h
    by_cases hblank : isBlank c = true
    · have hself : ∀ expected, step ⟨frames, .between expected⟩ c
          = some ⟨frames, .between expected⟩ := fun _ => if_pos hblank
      rw [hself, Option.some.injEq] at hstep
      rw [hself, Option.bind_some]
      exact ih (hstep ▸ hrun)
    -- Only a closing bracket is read in another way, and it begins no value.
    · have hvalue : step ⟨frames, .between .value⟩ c = beginValue c frames := if_neg hblank
      rw [hvalue] at hstep
      have hc : c ≠ ']' := by
        rintro rfl
        exact absurd hstep (by simp [beginValue, Char.isDigit])
      have hfirst : step ⟨frames, .between .firstItem⟩ c = beginValue c frames := by
        show stepBetween frames .firstItem c = _
        rw [stepBetween, if_neg hblank]
        exact if_neg hc
      rw [hfirst, hstep, Option.bind_some]
      exact hrun

/-- **Texts with commas between them and brackets around them read as an array.** -/
theorem parse_array {texts : List String} {trees : List Json}
    (h : List.Forall₂ (fun text tree => parse? text = some tree ∧ tree.nesting + 1 < nestingLimit)
      texts trees) :
    parse? ("[" ++ String.intercalate "," texts ++ "]") = some (.array trees) := by
  have hopen : step .initial '[' = some ⟨[.array []], .between .firstItem⟩ := rfl
  cases texts with
  | nil =>
    rw [List.forall₂_nil_left_iff] at h
    rw [h]
    rfl
  | cons text texts =>
    have htext : ("[" ++ String.intercalate "," (text :: texts) ++ "]").toList
        = '[' :: ((String.intercalate "," (text :: texts)).toList ++ [']']) := by
      rw [String.toList_append, String.toList_append]
      rfl
    have hitems := run_firstItem (run_items h []) (by simp)
    rw [parse?, htext, run_cons, hopen, Option.bind_some, hitems]
    rfl

end SqlTemplate.Json
