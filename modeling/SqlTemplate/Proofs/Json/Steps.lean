import SqlTemplate.Json.Reader
import Mathlib.Tactic.SplitIfs

/-!
What a character does to the containers that are open.

Where the reader stands and the character that comes decide together what happens to the open
containers; the containers themselves only say whether it can happen. `Effect` lists what can
happen. The reader's steps are taken apart here and nowhere else (`step_cases`).
-/

set_option autoImplicit false

namespace SqlTemplate.Json

/-! ## What a character does -/

/-- Whether one complete tree has been read, and nothing may follow. -/
def Position.isDone : Position → Bool
  | .between (.nothing _) => true
  | _ => false

/-- Either nothing may follow, or the tree is not complete. -/
theorem nothing_or_not_isDone (expected : Expected) :
    (∃ tree, expected = .nothing tree) ∨ Position.isDone (.between expected) = false := by
  cases expected with
  | nothing tree => exact Or.inl ⟨tree, rfl⟩
  | _ => exact Or.inr rfl

/-- What a character can do to the open containers. A move leaves them as they are. -/
inductive Effect where
  | refuse
  | move (position : Position) (h : position.isDone = false)
  | complete (tree : Json)
  | completeString (content : List Char)
  | openArray
  | openObject
  | close (c : Char)
  | comma

/-- An effect on the open containers, innermost first. -/
def Effect.apply (frames : List Frame) : Effect → Option State
  | refuse => none
  | move position _ => some ⟨frames, position⟩
  | complete tree => Json.complete tree frames
  | completeString content => Json.completeString content frames
  | openArray => openFrame (.array []) frames .firstItem
  | openObject => openFrame (.object []) frames .firstName
  | close c => closeFrame c frames
  | comma => afterComma frames

/-- The first character of a value decides what happens. -/
theorem exists_effect_beginValue (c : Char) :
    ∃ effect : Effect, ∀ frames, beginValue c frames = effect.apply frames := by
  unfold beginValue
  split_ifs
  · exact ⟨.openArray, fun _ => rfl⟩
  · exact ⟨.openObject, fun _ => rfl⟩
  · exact ⟨.move (.string [] .plain) rfl, fun _ => rfl⟩
  · exact ⟨.move (.word "rue".toList (.bool true)) rfl, fun _ => rfl⟩
  · exact ⟨.move (.word "alse".toList (.bool false)) rfl, fun _ => rfl⟩
  · exact ⟨.move (.word "ull".toList .null) rfl, fun _ => rfl⟩
  · exact ⟨.move (.number [c]) rfl, fun _ => rfl⟩
  · exact ⟨.refuse, fun _ => rfl⟩

theorem exists_effect_beginName (c : Char) :
    ∃ effect : Effect, ∀ frames, beginName c frames = effect.apply frames := by
  unfold beginName
  split_ifs
  · exact ⟨.move (.string [] .plain) rfl, fun _ => rfl⟩
  · exact ⟨.refuse, fun _ => rfl⟩

/-- Before a complete tree, the open containers have no say in what a character does to them. -/
theorem exists_effect_between {expected : Expected}
    (hdone : Position.isDone (.between expected) = false) (c : Char) :
    ∃ effect : Effect, ∀ frames, stepBetween frames expected c = effect.apply frames := by
  unfold stepBetween
  by_cases hblank : isBlank c = true
  · simp only [if_pos hblank]
    exact ⟨.move (.between expected) hdone, fun _ => rfl⟩
  · simp only [if_neg hblank]
    -- What is expected decides between beginning, closing, moving on and refusing.
    cases expected with
    | value => exact exists_effect_beginValue c
    | firstItem =>
      dsimp only
      split_ifs
      · exact ⟨.close c, fun _ => rfl⟩
      · exact exists_effect_beginValue c
    | firstName =>
      dsimp only
      split_ifs
      · exact ⟨.close c, fun _ => rfl⟩
      · exact exists_effect_beginName c
    | name => exact exists_effect_beginName c
    | colon =>
      dsimp only
      split_ifs
      · exact ⟨.move (.between .value) rfl, fun _ => rfl⟩
      · exact ⟨.refuse, fun _ => rfl⟩
    | separator =>
      dsimp only
      split_ifs
      · exact ⟨.comma, fun _ => rfl⟩
      · exact ⟨.close c, fun _ => rfl⟩
    | nothing tree => exact absurd hdone (by simp [Position.isDone])

/-- After an escape the string goes on. -/
theorem isDone_of_completeHex {content : List Char} {first : Option Nat} {code : Nat}
    {position : Position} (h : completeHex content first code = some position) :
    position.isDone = false := by
  unfold completeHex at h
  split at h <;> split_ifs at h <;> (rw [← Option.some.inj h]; rfl)

/-- Inside a string no tree is complete. -/
theorem isDone_of_stepString {content : List Char} {inside : InString} {c : Char}
    {position : Position} (h : stepString content inside c = some position) :
    position.isDone = false := by
  unfold stepString at h
  cases inside with
  | hex first code count =>
    dsimp only at h
    split at h
    · exact absurd h (by simp)
    · split_ifs at h
      · rw [← Option.some.inj h]
        rfl
      · exact isDone_of_completeHex h
  -- The letter `u` opens a code, and any other letter stands for a character.
  | escape =>
    dsimp only at h
    split_ifs at h
    · rw [← Option.some.inj h]
      rfl
    · obtain ⟨d, -, rfl⟩ := Option.map_eq_some_iff.mp h
      rfl
  | plain | partner | partnerMark =>
    dsimp only at h
    split_ifs at h <;> (rw [← Option.some.inj h]; rfl)

/-- A complete tree ends a lexical unit. -/
theorem exists_between_of_complete {tree : Json} {frames : List Frame} {s : State}
    (h : complete tree frames = some s) : ∃ fs expected, s = ⟨fs, .between expected⟩ := by
  unfold complete at h
  split at h
  · exact ⟨_, _, (Option.some.inj h).symm⟩
  · exact ⟨_, _, (Option.some.inj h).symm⟩
  · exact ⟨_, _, (Option.some.inj h).symm⟩
  · exact absurd h (by simp)

/-- A number ends at the first character that is none of its own, and that one is read after it. -/
theorem step_number {content : List Char} {c : Char} (hc : isNumberChar c = false)
    (frames : List Frame) :
    step ⟨frames, .number content⟩ c = (completeNumber content frames).bind (step · c) := by
  unfold step
  dsimp only
  rw [if_neg (by rw [hc]; exact Bool.false_ne_true)]
  cases hs : completeNumber content frames with
  | none => rfl
  | some s =>
    obtain ⟨numeral, -, hcomplete⟩ := Option.bind_eq_some_iff.mp hs
    obtain ⟨fs, expected, rfl⟩ := exists_between_of_complete hcomplete
    rfl

/-- The same inside a lexical unit, as long as the character belongs to it or ends it. -/
theorem exists_effect_inside {position : Position} {c : Char}
    (hbetween : ∀ expected, position ≠ .between expected)
    (hnumber : ∀ content, position = .number content → isNumberChar c = true) :
    ∃ effect : Effect, ∀ frames, step ⟨frames, position⟩ c = effect.apply frames := by
  cases position with
  | between expected => exact absurd rfl (hbetween expected)
  | string content inside =>
    -- Only the quote that ends the string looks at the containers: there it is a name or a tree.
    by_cases hend : inside = .plain ∧ c = '\"'
    · obtain ⟨rfl, rfl⟩ := hend
      exact ⟨.completeString content, fun _ => rfl⟩
    · have hstep : ∀ frames, step ⟨frames, .string content inside⟩ c
          = (stepString content inside c).map (State.mk frames) := by
        intro frames
        cases inside with
        | plain => exact if_neg fun hc => hend ⟨rfl, hc⟩
        | _ => rfl
      cases hs : stepString content inside c with
      | none => exact ⟨.refuse, fun frames => by rw [hstep, hs]; rfl⟩
      | some next =>
        exact ⟨.move next (isDone_of_stepString hs), fun frames => by rw [hstep, hs]; rfl⟩
  | word rest tree =>
    cases rest with
    | nil => exact ⟨.refuse, fun _ => rfl⟩
    | cons next rest =>
      by_cases hc : c = next
      · subst hc
        cases rest with
        | nil => exact ⟨.complete tree, fun _ => if_pos rfl⟩
        | cons next rest => exact ⟨.move (.word (next :: rest) tree) rfl, fun _ => if_pos rfl⟩
      · refine ⟨.refuse, fun _ => ?_⟩
        cases rest with
        | nil => exact if_neg hc
        | cons next rest => exact if_neg hc
  | number content =>
    exact ⟨.move (.number (c :: content)) rfl, fun _ => if_pos (hnumber content rfl)⟩

/-- What a step does. Between lexical units it is a step there; inside one it is an effect on the
open containers; and a number may end before the character. -/
theorem step_cases {s s' : State} {c : Char} (h : step s c = some s') :
    (∃ expected, s.position = .between expected ∧ stepBetween s.frames expected c = some s')
      ∨ (∃ content fs expected, s.position = .number content ∧ isNumberChar c = false
          ∧ completeNumber content s.frames = some ⟨fs, .between expected⟩
          ∧ stepBetween fs expected c = some s')
      ∨ s.position.isDone = false
          ∧ ∃ effect : Effect, ∀ frames, step ⟨frames, s.position⟩ c = effect.apply frames := by
  obtain ⟨frames, position⟩ := s
  by_cases hbetween : ∃ expected, position = .between expected
  · obtain ⟨expected, rfl⟩ := hbetween
    exact Or.inl ⟨expected, rfl, h⟩
  right
  -- A character that belongs to no number ends one, and is then read between lexical units.
  by_cases hend : ∃ content, position = .number content ∧ isNumberChar c = false
  · left
    obtain ⟨content, rfl, hc⟩ := hend
    rw [step_number hc] at h
    obtain ⟨t, ht, hstep⟩ := Option.bind_eq_some_iff.mp h
    obtain ⟨numeral, -, hcomplete⟩ := Option.bind_eq_some_iff.mp ht
    obtain ⟨fs, expected, rfl⟩ := exists_between_of_complete hcomplete
    exact ⟨content, fs, expected, rfl, hc, ht, hstep⟩
  · right
    rw [not_exists] at hbetween
    refine ⟨?_, exists_effect_inside hbetween ?_⟩
    · cases position with
      | between expected => exact absurd rfl (hbetween expected)
      | _ => rfl
    · intro content hposition
      by_cases hc : isNumberChar c = true
      · exact hc
      · exact absurd ⟨content, hposition, Bool.eq_false_iff.mpr hc⟩ hend

/-- Behind a complete tree only blanks may follow. -/
theorem stepBetween_nothing {frames : List Frame} {tree : Json} {c : Char} {s : State}
    (h : stepBetween frames (.nothing tree) c = some s) :
    isBlank c = true ∧ s = ⟨frames, .between (.nothing tree)⟩ := by
  unfold stepBetween at h
  split_ifs at h with hblank
  exact ⟨hblank, (Option.some.inj h).symm⟩

theorem run_cons (s : State) (c : Char) (text : List Char) :
    run s (c :: text) = (step s c).bind (run · text) := by
  rw [run, List.foldlM_cons]
  rfl

theorem run_append (s : State) (text rest : List Char) :
    run s (text ++ rest) = (run s text).bind (run · rest) := by
  rw [run, List.foldlM_append]
  rfl

end SqlTemplate.Json
