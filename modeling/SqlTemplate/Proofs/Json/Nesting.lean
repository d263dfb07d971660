import SqlTemplate.Proofs.Json.Steps

/-!
How deep JSON trees nest, and how many containers their texts keep open.

The nesting of a state is what a tree that is finished from there nests at least. No step lowers it,
so a reader that ends with a tree never had more containers open than that tree nests
(`length_frames_le_nesting`). A limit on open containers is therefore a limit on nesting.
-/

set_option autoImplicit false

namespace SqlTemplate.Json

/-! ## Nesting -/

mutual

/-- How many containers are around the innermost part of a tree. -/
def nesting : Json → Nat
  | array items => itemsNesting items + 1
  | object members => membersNesting members + 1
  | null | bool _ | number _ | string _ => 0

def itemsNesting : List Json → Nat
  | [] => 0
  | item :: rest => max item.nesting (itemsNesting rest)

def membersNesting : List (String × Json) → Nat
  | [] => 0
  | (_, member) :: rest => max member.nesting (membersNesting rest)

end

/-- Items nest as deep as the deepest of them. -/
theorem itemsNesting_append (as bs : List Json) :
    itemsNesting (as ++ bs) = max (itemsNesting as) (itemsNesting bs) := by
  induction as with
  | nil => simp [itemsNesting]
  | cons a as ih => rw [List.cons_append, itemsNesting, itemsNesting, ih, Nat.max_assoc]

theorem itemsNesting_reverse (items : List Json) :
    itemsNesting items.reverse = itemsNesting items := by
  induction items with
  | nil => rfl
  | cons item rest ih =>
    rw [List.reverse_cons, itemsNesting_append, ih, Nat.max_comm]
    simp [itemsNesting]

/-- Members nest as deep as their values. -/
theorem membersNesting_eq (members : List (String × Json)) :
    membersNesting members = itemsNesting (members.map Prod.snd) := by
  induction members with
  | nil => rfl
  | cons member rest ih => rw [List.map_cons, membersNesting, itemsNesting, ih]

theorem membersNesting_append (as bs : List (String × Json)) :
    membersNesting (as ++ bs) = max (membersNesting as) (membersNesting bs) := by
  rw [membersNesting_eq, List.map_append, itemsNesting_append, membersNesting_eq,
    membersNesting_eq]

theorem membersNesting_reverse (members : List (String × Json)) :
    membersNesting members.reverse = membersNesting members := by
  rw [membersNesting_eq, List.map_reverse, itemsNesting_reverse, membersNesting_eq]

/-- How deep nests what a container holds so far. -/
def Frame.nesting : Frame → Nat
  | array items => itemsNesting items
  | object members | member members _ => membersNesting members

/-- How deep a tree nests at least that is finished from these open containers. -/
def openNesting : List Frame → Nat
  | [] => 0
  | frame :: frames => max (frames.length + 1 + frame.nesting) (openNesting frames)

/-- How deep a tree nests at least that is finished from a state. -/
def State.nesting (s : State) : Nat :=
  match s.position with
  | .between (.nothing tree) => tree.nesting
  | _ => openNesting s.frames

variable {s s' : State} {frames : List Frame} {tree : Json} {c : Char}

/-- Until the tree is complete, the open containers count. -/
theorem State.nesting_of_not_isDone {position : Position} (h : position.isDone = false) :
    State.nesting ⟨frames, position⟩ = openNesting frames := by
  unfold State.nesting
  split
  · rename_i tree hposition
    rw [show position = .between (.nothing tree) from hposition] at h
    exact absurd h (by simp [Position.isDone])
  · rfl

/-- A complete tree counts with the containers around it. -/
theorem le_nesting_of_complete (h : complete tree frames = some s) :
    openNesting frames ≤ s.nesting ∧ frames.length + tree.nesting ≤ s.nesting := by
  unfold complete at h
  split at h
  · rw [← Option.some.inj h]
    simp [openNesting, State.nesting]
  · rw [← Option.some.inj h]
    simp only [openNesting, State.nesting, Frame.nesting, itemsNesting, List.length_cons]
    omega
  · rw [← Option.some.inj h]
    simp only [openNesting, State.nesting, Frame.nesting, membersNesting, List.length_cons]
    omega
  · exact absurd h (by simp)

/-- A complete string leaves the nesting as it is. -/
theorem le_nesting_of_completeString {content : List Char}
    (h : completeString content frames = some s) : openNesting frames ≤ s.nesting := by
  unfold completeString at h
  split at h
  · rw [← Option.some.inj h]
    exact Nat.le_refl _
  · exact (le_nesting_of_complete h).1

/-- A container that opens does not lower the nesting. -/
theorem le_nesting_of_openFrame {frame : Frame} {expected : Expected}
    (hexpected : Position.isDone (.between expected) = false)
    (h : openFrame frame frames expected = some s) : openNesting frames ≤ s.nesting := by
  unfold openFrame at h
  split_ifs at h
  rw [← Option.some.inj h, State.nesting_of_not_isDone hexpected, openNesting]
  omega

theorem le_nesting_of_closeFrame (h : closeFrame c frames = some s) :
    openNesting frames ≤ s.nesting := by
  unfold closeFrame at h
  split at h
  · split_ifs at h
    have hle := le_nesting_of_complete h
    rw [Json.nesting, itemsNesting_reverse] at hle
    rw [openNesting, Frame.nesting]
    omega
  · split_ifs at h
    have hle := le_nesting_of_complete h
    rw [Json.nesting, membersNesting_reverse] at hle
    rw [openNesting, Frame.nesting]
    omega
  · exact absurd h (by simp)

theorem le_nesting_of_afterComma (h : afterComma frames = some s) :
    openNesting frames ≤ s.nesting := by
  unfold afterComma at h
  split at h
  · rw [← Option.some.inj h]
    exact Nat.le_refl _
  · rw [← Option.some.inj h]
    exact Nat.le_refl _
  · exact absurd h (by simp)

/-- No effect lowers the nesting. -/
theorem Effect.le_nesting {effect : Effect} (h : effect.apply frames = some s) :
    openNesting frames ≤ s.nesting := by
  cases effect with
  | refuse => exact absurd h (by simp [apply])
  | move position hdone =>
    apply Nat.le_of_eq
    rw [← Option.some.inj h, State.nesting_of_not_isDone hdone]
  | complete tree => exact (le_nesting_of_complete h).1
  | completeString content => exact le_nesting_of_completeString h
  | openArray => exact le_nesting_of_openFrame rfl h
  | openObject => exact le_nesting_of_openFrame rfl h
  | close c => exact le_nesting_of_closeFrame h
  | comma => exact le_nesting_of_afterComma h

/-! ## Runs -/

/-- No step between lexical units lowers it. -/
theorem le_nesting_of_stepBetween {expected : Expected}
    (h : stepBetween frames expected c = some s) :
    State.nesting ⟨frames, .between expected⟩ ≤ s.nesting := by
  rcases nothing_or_not_isDone expected with ⟨tree, rfl⟩ | hdone
  · apply Nat.le_of_eq
    rw [(stepBetween_nothing h).2]
  · obtain ⟨effect, heffect⟩ := exists_effect_between hdone c
    rw [heffect] at h
    rw [State.nesting_of_not_isDone hdone]
    exact effect.le_nesting h

/-- **No step lowers the nesting.** -/
theorem State.nesting_le_of_step (h : step s c = some s') : s.nesting ≤ s'.nesting := by
  rcases step_cases h with ⟨expected, hposition, h⟩ | ⟨content, fs, expected, hposition, -, ht, h⟩ |
    ⟨hdone, effect, heffect⟩
  · have hle := le_nesting_of_stepBetween h
    rw [← hposition] at hle
    exact hle
  · obtain ⟨numeral, -, hcomplete⟩ := Option.bind_eq_some_iff.mp ht
    have hle := (le_nesting_of_complete hcomplete).1
    have hself : s.nesting = openNesting s.frames := by
      rw [State.nesting, hposition]
    rw [hself]
    exact Nat.le_trans hle (le_nesting_of_stepBetween h)
  · rw [show s.nesting = openNesting s.frames from State.nesting_of_not_isDone hdone]
    exact effect.le_nesting ((heffect s.frames).symm.trans h)

theorem State.nesting_le_of_run {text : List Char} (h : run s text = some s') :
    s.nesting ≤ s'.nesting := by
  induction text generalizing s with
  | nil =>
    apply Nat.le_of_eq
    rw [← Option.some.inj h]
  | cons c text ih =>
    rw [run_cons] at h
    obtain ⟨t, hstep, hrun⟩ := Option.bind_eq_some_iff.mp h
    exact Nat.le_trans (nesting_le_of_step hstep) (ih hrun)

/-- The nesting of a state counts only what ends up in the tree. -/
theorem State.nesting_le_of_finish (h : finish s = some tree) : s.nesting ≤ tree.nesting := by
  unfold finish at h
  unfold State.nesting
  split at h
  · rename_i hposition
    apply Nat.le_of_eq
    rw [hposition, Option.some.inj h]
  · rename_i content hposition
    rw [hposition]
    split at h
    · rename_i hcomplete
      obtain ⟨numeral, -, hcomplete⟩ := Option.bind_eq_some_iff.mp hcomplete
      rw [← Option.some.inj h]
      exact (le_nesting_of_complete hcomplete).1
    · exact absurd h (by simp)
  · exact absurd h (by simp)

/-- **A reader that ends with a tree never had more containers open than the tree nests.** -/
theorem length_frames_le_nesting {text : List Char} (hdone : s.position.isDone = false)
    (hrun : run s text = some s') (hfinish : finish s' = some tree) :
    s.frames.length ≤ tree.nesting := by
  have hopen : s.frames.length ≤ openNesting s.frames := by
    cases s.frames with
    | nil => exact Nat.le_refl _
    | cons frame frames =>
      rw [openNesting, List.length_cons]
      omega
  have hself : s.nesting = openNesting s.frames := State.nesting_of_not_isDone hdone
  have hle := State.nesting_le_of_run hrun
  have hend := State.nesting_le_of_finish hfinish
  omega

end SqlTemplate.Json
