import SqlTemplate.Json.Tree
import Mathlib.Data.List.Induction
import Mathlib.Logic.Relation
import SqlTemplate.Proofs.NamedValues

/-!
The value of a tree, place by place.

A place inside a tree is a path of item numbers and names. What the value of a tree has at a place
is the value of what the tree has there (`at?_of_toValue?`); where a name repeats in an object, the
last member with it counts on both sides. So strings stay text at any depth, and nothing in the
value of a tree is there that is not itself the value of a tree (`exists_of_below`).
-/

set_option autoImplicit false

namespace SqlTemplate

namespace Json

theorem merge_append_singleton {α : Type} (members : Named α) (member : String × α) :
    merge (members ++ [member]) = Named.set member.1 member.2 (merge members) := by
  rw [merge, List.foldl_append]
  rfl

/-- Under a name there is what the last member with that name has. -/
theorem lookup_merge {α : Type} (name : String) (members : Named α) :
    (merge members).lookup name = members.reverse.lookup name := by
  induction members using List.reverseRecOn with
  | nil => rfl
  | append_singleton members member ih =>
    rw [merge_append_singleton, Named.lookup_set, ih, List.reverse_append, List.reverse_singleton,
      List.singleton_append, Named.lookup_cons_eq_ite]

/-- Merging brings in no entry. -/
theorem mem_of_mem_merge {α : Type} {members : Named α} {entry : String × α}
    (h : entry ∈ merge members) : entry ∈ members := by
  induction members using List.reverseRecOn with
  | nil => exact h
  | append_singleton members member ih =>
    rw [merge_append_singleton] at h
    rw [List.mem_append, List.mem_singleton]
    rcases Named.mem_of_mem_set h with rfl | h
    · exact Or.inr rfl
    · exact Or.inl (ih h)

/-! ## Containers -/

/-- Items have values exactly if each of them has. -/
theorem itemsToValues?_eq_some_iff {items : List Json} {values : List Value} :
    itemsToValues? items = some values ↔ items.map toValue? = values.map some := by
  induction items generalizing values with
  | nil => cases values <;> simp [itemsToValues?]
  | cons item items ih =>
    rw [itemsToValues?]
    cases values with
    | nil => split <;> simp
    | cons value values =>
      rw [List.map_cons, List.map_cons, List.cons.injEq, ← ih]
      split
      · rename_i hitem hitems
        rw [hitem, hitems]
        simp
      -- One of the two has no value, so neither has the array.
      · rename_i hnone
        refine iff_of_false (by simp) ?_
        rintro ⟨hitem, hitems⟩
        exact hnone _ _ hitem hitems

/-- Members have values exactly if each of them has. -/
theorem membersToValues?_eq_some_iff {members : List (String × Json)}
    {entries : List (String × Value)} :
    membersToValues? members = some entries
      ↔ members.map (fun member => (member.1, member.2.toValue?))
        = entries.map (fun entry => (entry.1, some entry.2)) := by
  induction members generalizing entries with
  | nil => cases entries <;> simp [membersToValues?]
  | cons member members ih =>
    obtain ⟨name, member⟩ := member
    rw [membersToValues?]
    cases entries with
    | nil => split <;> simp
    | cons entry entries =>
      obtain ⟨key, value⟩ := entry
      rw [List.map_cons, List.map_cons, List.cons.injEq, ← ih, Prod.mk.injEq]
      split
      · rename_i hmember hmembers
        rw [hmember, hmembers]
        simp [and_assoc]
      -- One of the two has no value, so neither has the object.
      · rename_i hnone
        refine iff_of_false (by simp) ?_
        rintro ⟨⟨-, hmember⟩, hmembers⟩
        exact hnone _ _ hmember hmembers

/-- What the value of a tree is made of, one level down. -/
inductive ValueOf : Json → Value → Prop where
  | null : ValueOf .null .null
  | bool (truth : Bool) : ValueOf (.bool truth) (.bool truth)
  | int {numeral : Numeral} {number : Int64} (h : integerOf? numeral = some number) :
    ValueOf (.number numeral) (.int number)
  | float {numeral : Numeral} {number : Binary64} (hint : integerOf? numeral = none)
    (h : floatOf? numeral = some number) : ValueOf (.number numeral) (.float number)
  | text (content : String) : ValueOf (.string content) (.text content)
  | sequence {items : List Json} {values : List Value}
    (h : items.map toValue? = values.map some) : ValueOf (.array items) (.sequence values)
  | mapping {members : List (String × Json)} {entries : List (String × Value)}
    (h : members.map (fun member => (member.1, member.2.toValue?))
      = entries.map (fun entry => (entry.1, some entry.2))) :
    ValueOf (.object members) (.mapping (merge entries))

/-- The value of a tree is of its kind. -/
theorem valueOf_of_toValue? {tree : Json} {value : Value} (h : tree.toValue? = some value) :
    ValueOf tree value := by
  cases tree with
  | null =>
    rw [← Option.some.inj h]
    exact .null
  | bool truth =>
    rw [← Option.some.inj h]
    exact .bool truth
  | number numeral =>
    rw [toValue?, numberValue?] at h
    split at h
    -- A number is an integer if it can be, and a float else.
    · rename_i number hnumber
      rw [← Option.some.inj h]
      exact .int hnumber
    · rename_i hnone
      obtain ⟨number, hnumber, rfl⟩ := Option.map_eq_some_iff.mp h
      exact .float hnone hnumber
  | string content =>
    rw [← Option.some.inj h]
    exact .text content
  | array items =>
    obtain ⟨values, hvalues, rfl⟩ := Option.map_eq_some_iff.mp h
    exact .sequence (itemsToValues?_eq_some_iff.mp hvalues)
  | object members =>
    obtain ⟨entries, hentries, rfl⟩ := Option.map_eq_some_iff.mp h
    exact .mapping (membersToValues?_eq_some_iff.mp hentries)

end Json

/-! ## Places -/

/-- A way into a container. -/
inductive Key where
  | index (i : Nat)
  | name (name : String)

/-- What an array has at an index, or an object under a name: there the last member counts. -/
def Json.child? : Json → Key → Option Json
  | .array items, .index i => items[i]?
  | .object members, .name name => members.reverse.lookup name
  | _, _ => none

/-- What a list has at an index, or a mapping under a name. -/
def Value.child? : Value → Key → Option Value
  | .sequence items, .index i => items[i]?
  | .mapping entries, .name name => entries.lookup name
  | _, _ => none

/-- What a tree has at the end of a path. -/
def Json.at? (tree : Json) (path : List Key) : Option Json := path.foldlM Json.child? tree

/-- What a value has at the end of a path. -/
def Value.at? (value : Value) (path : List Key) : Option Value := path.foldlM Value.child? value

namespace Json

variable {tree : Json} {value : Value}

/-- One level down, a value has the values of what its tree has. -/
theorem child?_of_toValue? (h : tree.toValue? = some value) (key : Key) :
    (tree.child? key).map toValue? = (value.child? key).map some := by
  rcases valueOf_of_toValue? h with _ | _ | _ | _ | _ | hitems | hmembers
  case sequence =>
    cases key with
    | index i =>
      have hget := congrArg (fun list => list[i]?) hitems
      simp only [List.getElem?_map] at hget
      exact hget
    | name name => rfl
  case mapping =>
    cases key with
    | index i => rfl
    | name name =>
      -- Looking up the last member goes through the map of the values.
      have hfind := congrArg (fun list => list.reverse.lookup name) hmembers
      simp only [← List.map_reverse, Named.lookup_map] at hfind
      rw [child?, Value.child?, lookup_merge]
      exact hfind
  all_goals rfl

/-- **What the value of a tree has at a place is the value of what the tree has there.** -/
theorem at?_of_toValue? (h : tree.toValue? = some value) (path : List Key) :
    (tree.at? path).map toValue? = (value.at? path).map some := by
  induction path generalizing tree value with
  | nil => exact congrArg some h
  | cons key path ih =>
    have hchild := child?_of_toValue? h key
    rw [at?, Value.at?, List.foldlM_cons, List.foldlM_cons]
    cases htree : tree.child? key with
    | none =>
      rw [htree] at hchild
      rw [Option.map_eq_none_iff.mp hchild.symm]
      rfl
    | some t =>
      rw [htree, Option.map_some] at hchild
      obtain ⟨v, hv, hsome⟩ := Option.map_eq_some_iff.mp hchild.symm
      rw [hv]
      exact ih hsome.symm

/-- A string at a path is a text at this path of the value. -/
theorem text_at?_of_toValue? (h : tree.toValue? = some value) {path : List Key} {content : String}
    (hpath : tree.at? path = some (.string content)) :
    value.at? path = some (.text content) := by
  have hat := at?_of_toValue? h path
  rw [hpath] at hat
  obtain ⟨v, hv, hsome⟩ := Option.map_eq_some_iff.mp hat.symm
  rw [hv]
  exact hsome

end Json

/-! ## Parts -/

namespace Value

/-- The items of a list and the values of a mapping. -/
inductive Part : Value → Value → Prop where
  | item {value : Value} {items : List Value} (h : value ∈ items) : Part value (.sequence items)
  | entry {name : String} {value : Value} {entries : List (String × Value)}
    (h : (name, value) ∈ entries) : Part value (.mapping entries)

/-- What is inside a value, at any depth below it. -/
def Below : Value → Value → Prop := Relation.TransGen Part

end Value

namespace Json

/-- A part of a value comes from a tree. -/
theorem exists_of_part {tree : Json} {value part : Value} (h : tree.toValue? = some value)
    (hpart : Value.Part part value) : ∃ t : Json, t.toValue? = some part := by
  cases hpart with
  | item hmem =>
    cases valueOf_of_toValue? h with
    | sequence hitems =>
      have hsome := List.mem_map_of_mem (f := some) hmem
      rw [← hitems] at hsome
      obtain ⟨t, -, ht⟩ := List.mem_map.mp hsome
      exact ⟨t, ht⟩
  | entry hmem =>
    cases valueOf_of_toValue? h with
    | mapping hmembers =>
      have hsome := List.mem_map_of_mem (f := fun entry => (entry.1, some entry.2))
        (mem_of_mem_merge hmem)
      -- A mapping holds only entries that the object had.
      rw [← hmembers] at hsome
      obtain ⟨member, -, hmember⟩ := List.mem_map.mp hsome
      exact ⟨member.2, (Prod.mk.inj hmember).2⟩

/-- **All that is inside the value of a tree is itself the value of a tree.** -/
theorem exists_of_below {tree : Json} {value inner : Value} (h : tree.toValue? = some value)
    (hbelow : Value.Below inner value) : ∃ t : Json, t.toValue? = some inner := by
  induction hbelow generalizing tree with
  | single hpart => exact exists_of_part h hpart
  | tail _ hpart ih =>
    obtain ⟨t, ht⟩ := exists_of_part h hpart
    exact ih ht

/-- The skip sentinel is the value of no tree. -/
theorem toValue?_ne_skip (tree : Json) : tree.toValue? ≠ some .skip := by
  intro h
  cases valueOf_of_toValue? h

end Json

end SqlTemplate
