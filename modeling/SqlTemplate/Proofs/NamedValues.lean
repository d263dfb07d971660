import Mathlib.Data.List.Nodup
import Mathlib.Tactic.SplitIfs
import SqlTemplate.Named

/-!
Names and what they find.

Where every name stands once, an entry is what its name finds (`Named.lookup_of_mem`). Setting a
name and adding a new one keep the names distinct.
-/

set_option autoImplicit false

namespace SqlTemplate

namespace Named

variable {α β : Type} {name : String} {values : Named α}

/-- Changing the values keeps where each of them is found. -/
theorem lookup_map (name : String) (f : α → β) (entries : Named α) :
    (entries.map fun entry => (entry.1, f entry.2)).lookup name = (entries.lookup name).map f := by
  induction entries with
  | nil => rfl
  | cons entry entries ih =>
    obtain ⟨key, value⟩ := entry
    rw [List.map_cons, lookup_cons_eq_ite, lookup_cons_eq_ite, ih]
    split_ifs
    · rfl
    · rfl

/-- Setting a name brings in no entry but the new one. -/
theorem mem_of_mem_set {value : α} {entry : String × α} (h : entry ∈ set name value values) :
    entry = (name, value) ∨ entry ∈ values := by
  induction values with
  | nil => exact Or.inl (List.mem_singleton.mp h)
  | cons first rest ih =>
    obtain ⟨key, old⟩ := first
    rw [set] at h
    split_ifs at h with hkey
    · rw [hkey, List.mem_cons] at h
      exact h.imp_right (List.mem_cons_of_mem _)
    · rcases List.mem_cons.mp h with rfl | h
      · exact Or.inr List.mem_cons_self
      · exact (ih h).imp_right (List.mem_cons_of_mem _)

/-- A name of an entry finds something. -/
theorem exists_lookup_of_mem (h : name ∈ values.map Prod.fst) :
    ∃ value, values.lookup name = some value := by
  obtain ⟨entry, hentry, hname⟩ := List.mem_map.mp h
  exact Option.isSome_iff_exists.mp
    (List.lookup_isSome_iff.mpr ⟨entry, hentry, beq_iff_eq.mpr hname.symm⟩)

/-- Where every name stands once, an entry is what its name finds. -/
theorem lookup_of_mem (hnodup : (values.map Prod.fst).Nodup) {value : α}
    (h : (name, value) ∈ values) : values.lookup name = some value := by
  induction values with
  | nil => exact absurd h List.not_mem_nil
  | cons entry rest ih =>
    obtain ⟨key, first⟩ := entry
    rw [List.map_cons, List.nodup_cons] at hnodup
    rw [lookup_cons_eq_ite]
    rcases List.mem_cons.mp h with heq | hrest
    · obtain ⟨rfl, rfl⟩ := Prod.mk.inj heq
      exact if_pos rfl
    · rw [if_neg ?_, ih hnodup.2 hrest]
      rintro rfl
      exact hnodup.1 (List.mem_map.mpr ⟨_, hrest, rfl⟩)

/-- What a name finds is the value of an entry. -/
theorem mem_of_lookup {value : α} (h : values.lookup name = some value) :
    (name, value) ∈ values := by
  obtain ⟨front, back, rfl, -⟩ := List.lookup_eq_some_iff.mp h
  exact List.mem_append_right front List.mem_cons_self

/-- A name that is not there yet can be added. -/
theorem nodup_append_name (h : (values.map Prod.fst).Nodup) (hnew : name ∉ values.map Prod.fst) :
    (values.map Prod.fst ++ [name]).Nodup := by
  rw [List.nodup_append]
  refine ⟨h, List.nodup_singleton name, fun other hother added hadded => ?_⟩
  rw [List.mem_singleton.mp hadded]
  rintro rfl
  exact hnew hother

theorem nodup_map_fst_set (value : α) (h : (values.map Prod.fst).Nodup) :
    ((set name value values).map Prod.fst).Nodup := by
  rw [map_fst_set]
  split
  · exact h
  · rename_i hnew
    exact nodup_append_name h hnew

theorem nodup_map_fst_append (value : α) (h : (values.map Prod.fst).Nodup)
    (hnew : values.lookup name = none) : ((values ++ [(name, value)]).map Prod.fst).Nodup := by
  rw [List.map_append]
  refine nodup_append_name h fun hmem => ?_
  obtain ⟨found, hfound⟩ := exists_lookup_of_mem hmem
  rw [hnew] at hfound
  exact absurd hfound (by simp)

end Named

end SqlTemplate
