/-!
Named values in order.

A list of named values keeps the order in which its names were first given. Looking up a name gives
the first value under it. Setting a name changes that value in its place, or adds the name at the
end, so a list that is built by setting alone holds every name once.
-/

set_option autoImplicit false

namespace SqlTemplate

/-- Values with names, in order. -/
abbrev Named (α : Type) := List (String × α)

namespace Named

variable {α : Type}

/-- The same values, with the first one of a name replaced, or a new one at the end. -/
def set (name : String) (value : α) : Named α → Named α
  | [] => [(name, value)]
  | (key, old) :: rest =>
    if key = name then (key, value) :: rest else (key, old) :: set name value rest

/-- Looking up a name looks at the first entry, and then at the others. -/
theorem lookup_cons_eq_ite (name key : String) (value : α) (rest : Named α) :
    ((key, value) :: rest).lookup name = if name = key then some value else rest.lookup name := by
  rw [List.lookup_cons]
  by_cases h : name = key
  · rw [if_pos h, beq_iff_eq.mpr h]
  · rw [if_neg h, beq_eq_false_iff_ne.mpr h]

/-- Setting a name is seen under that name and no other. -/
theorem lookup_set (name other : String) (value : α) (values : Named α) :
    (set name value values).lookup other
      = if other = name then some value else values.lookup other := by
  induction values with
  | nil => rw [set, lookup_cons_eq_ite]
  | cons entry rest ih =>
    obtain ⟨key, old⟩ := entry
    by_cases h : key = name
    · rw [set, if_pos h, lookup_cons_eq_ite, lookup_cons_eq_ite, h]
      split <;> rfl
    · rw [set, if_neg h, lookup_cons_eq_ite, lookup_cons_eq_ite, ih]
      by_cases hother : other = key
      · rw [if_pos hother, if_neg (hother ▸ h), if_pos hother]
      · rw [if_neg hother, if_neg hother]

/-- Setting a name keeps the order of the names, and adds one that is new at the end. -/
theorem map_fst_set (name : String) (value : α) (values : Named α) :
    (set name value values).map Prod.fst =
      if name ∈ values.map Prod.fst then values.map Prod.fst
      else values.map Prod.fst ++ [name] := by
  induction values with
  | nil => simp [set]
  | cons entry rest ih =>
    obtain ⟨key, old⟩ := entry
    by_cases h : key = name
    · simp [set, h]
    · simp only [set, h, if_false, List.map_cons, ih, List.mem_cons, Ne.symm h, false_or]
      split <;> simp

end Named

end SqlTemplate
