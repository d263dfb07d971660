import SqlTemplate.CommandLine.ArgumentText
import SqlTemplate.Proofs.Json.Arrays
import SqlTemplate.Proofs.Json.Values

/-!
Arguments one by one, and all in one array.

The two ways to give arguments make the same values: the array of JSON texts has the values that the
texts have as arguments of their own, and the string `@skip` as an item of the array is what the
bare text is as an argument (`argument_forms_agree`). One text is told from the other before it is
read as JSON, one string from the others after. Inside an array or an object neither is done, so a
string stays text there, and the sentinel is nowhere below an argument.

An item may nest no deeper than what the reader allows with one container around it.
-/

set_option autoImplicit false

namespace SqlTemplate.CommandLine

/-- An argument as an item of the array of all arguments. -/
def itemText (argument : String) : String :=
  if argument = skipText then "\"@skip\"" else argument

/-- The array of all arguments. -/
def arrayText (arguments : List String) : String :=
  "[" ++ String.intercalate "," (arguments.map itemText) ++ "]"

/-- The text of the sentinel, or a JSON text that does not nest too deep for an array around it. The
sentinel's string is left out: it is text on its own. -/
def FitsArray (argument : String) : Prop :=
  argument = skipText ∨ ∃ tree value, Json.parse? argument = some tree
    ∧ tree.toValue? = some value ∧ tree.nesting ≤ 126 ∧ tree ≠ .string skipText

/-- What is inside a tree is inside the value as it is: strings are text, and nothing is the
sentinel. -/
structure KeepsInside (tree : Json) (value : Value) : Prop where
  text : ∀ path content, path ≠ [] → tree.at? path = some (.string content) →
    value.at? path = some (.text content)
  noSkip : ¬ Value.Below .skip value

variable {argument array : String} {arguments : List String} {tree : Json} {value : Value}

/-! ## Arguments and items -/

theorem parse_skipText : Json.parse? skipText = none := rfl

/-- No JSON text is the text of the skip sentinel. -/
theorem ne_skipText_of_parse (h : Json.parse? argument = some tree) : argument ≠ skipText := by
  rintro rfl
  rw [parse_skipText] at h
  exact absurd h (by simp)

/-- An argument that is a JSON text has the value of its tree. -/
theorem argumentValue_of_parse (h : Json.parse? argument = some tree)
    (hvalue : tree.toValue? = some value) : argumentValue argument = value := by
  rw [argumentValue, if_neg (ne_skipText_of_parse h), Json.readValue?, h, Option.bind_some, hvalue,
    Option.getD_some]

/-- An item is the sentinel only for one string. -/
theorem itemValue_of_ne (hvalue : tree.toValue? = some value) (h : tree ≠ .string skipText) :
    itemValue value = value := by
  cases Json.valueOf_of_toValue? hvalue with
  | text content =>
    rw [itemValue, if_neg]
    rintro rfl
    exact h rfl
  | _ => rfl

/-- As an item of the array an argument has the value that it has on its own. -/
theorem exists_item (h : FitsArray argument) :
    ∃ tree value, Json.parse? (itemText argument) = some tree
      ∧ tree.nesting + 1 < Json.nestingLimit ∧ tree.toValue? = some value
      ∧ itemValue value = argumentValue argument := by
  rcases h with rfl | ⟨tree, value, hparse, hvalue, hnesting, hne⟩
  · exact ⟨.string skipText, .text skipText, rfl, by decide, rfl, rfl⟩
  · refine ⟨tree, value, ?_, ?_, hvalue, ?_⟩
    · rw [itemText, if_neg (ne_skipText_of_parse hparse)]
      exact hparse
    · rw [Json.nestingLimit]
      omega
    · rw [itemValue_of_ne hvalue hne, argumentValue_of_parse hparse hvalue]

/-- Arguments that fit into an array are trees and values, item by item. -/
theorem exists_items (h : ∀ argument ∈ arguments, FitsArray argument) :
    ∃ (trees : List Json) (values : List Value),
      List.Forall₂ (fun text tree => Json.parse? text = some tree
          ∧ tree.nesting + 1 < Json.nestingLimit) (arguments.map itemText) trees
        ∧ trees.map Json.toValue? = values.map some
        ∧ values.map itemValue = arguments.map argumentValue := by
  induction arguments with
  | nil => exact ⟨[], [], List.Forall₂.nil, rfl, rfl⟩
  | cons argument arguments ih =>
    rw [List.forall_mem_cons] at h
    obtain ⟨tree, value, hparse, hnesting, hvalue, hitem⟩ := exists_item h.1
    obtain ⟨trees, values, htrees, hvalues, hitems⟩ := ih h.2
    refine ⟨tree :: trees, value :: values, List.Forall₂.cons ⟨hparse, hnesting⟩ htrees, ?_, ?_⟩
    · rw [List.map_cons, List.map_cons, hvalue, hvalues]
    · rw [List.map_cons, List.map_cons, hitem, hitems]

/-- The array of all arguments is read, and its items have the values of the arguments. -/
theorem argumentValues_arrayText (h : ∀ argument ∈ arguments, FitsArray argument) :
    argumentValues (arrayText arguments) = .ok (arguments.map argumentValue) := by
  obtain ⟨trees, values, htrees, hvalues, hitems⟩ := exists_items h
  have hread : Json.readValue? (arrayText arguments) = some (.sequence values) := by
    rw [Json.readValue?, arrayText, Json.parse_array htrees, Option.bind_some, Json.toValue?,
      Json.itemsToValues?_eq_some_iff.mpr hvalues]
    rfl
  rw [argumentValues, hread, ← hitems]

/-- What an array of arguments is made of. -/
theorem exists_trees_of_argumentValues {values : List Value}
    (h : argumentValues array = .ok values) :
    ∃ (trees : List Json) (items : List Value), Json.parse? array = some (.array trees)
      ∧ trees.map Json.toValue? = items.map some ∧ values = items.map itemValue := by
  rw [argumentValues] at h
  split at h
  · rename_i items hread
    obtain ⟨tree, hparse, hvalue⟩ := Option.bind_eq_some_iff.mp hread
    cases Json.valueOf_of_toValue? hvalue with
    | sequence hitems => exact ⟨_, items, hparse, hitems, (Except.ok.inj h).symm⟩
  · exact absurd h (by simp)
  · exact absurd h (by simp)

/-! ## Inside arguments -/

/-- Nothing below a value from JSON is the skip sentinel. -/
theorem not_below_skip (hvalue : tree.toValue? = some value) : ¬ Value.Below .skip value := by
  intro hbelow
  obtain ⟨t, ht⟩ := Json.exists_of_below hvalue hbelow
  exact t.toValue?_ne_skip ht

/-- A value from JSON keeps what is inside of its tree. -/
theorem keepsInside_value (hvalue : tree.toValue? = some value) : KeepsInside tree value := by
  refine ⟨?_, not_below_skip hvalue⟩
  intro path content _ hpath
  exact Json.text_at?_of_toValue? hvalue hpath

/-- Without parts there is nothing below. -/
theorem not_below_of_not_part {outer inner : Value} (h : ∀ part, ¬ Value.Part part outer) :
    ¬ Value.Below inner outer := by
  intro hbelow
  obtain ⟨part, -, hpart⟩ := Relation.TransGen.tail'_iff.mp hbelow
  exact h part hpart

theorem not_below_in_text (inner : Value) (content : String) :
    ¬ Value.Below inner (.text content) := by
  apply not_below_of_not_part
  intro part hpart
  cases hpart

theorem not_below_in_skip (inner : Value) : ¬ Value.Below inner .skip := by
  apply not_below_of_not_part
  intro part hpart
  cases hpart

/-- Turning an item into the sentinel changes nothing inside, since a string has no inside. -/
theorem keepsInside_itemValue (hvalue : tree.toValue? = some value) :
    KeepsInside tree (itemValue value) := by
  by_cases h : tree = .string skipText
  · subst h
    obtain rfl := Option.some.inj hvalue
    refine ⟨?_, not_below_in_skip _⟩
    intro path content hne hpath
    cases path with
    | nil => exact absurd rfl hne
    | cons key path => exact absurd hpath (by simp [Json.at?, Json.child?])
  · rw [itemValue_of_ne hvalue h]
    exact keepsInside_value hvalue

/-- The sentinel is an argument, but it is nowhere inside one. -/
theorem not_below_skip_argumentValue (argument : String) :
    ¬ Value.Below .skip (argumentValue argument) := by
  by_cases hskip : argument = skipText
  · rw [argumentValue, if_pos hskip]
    exact not_below_in_skip _
  · rw [argumentValue, if_neg hskip]
    cases hread : Json.readValue? argument with
    | none => exact not_below_in_text _ argument
    | some value =>
      obtain ⟨tree, -, hvalue⟩ := Option.bind_eq_some_iff.mp hread
      exact not_below_skip hvalue

/-- **The two ways to give arguments agree.** JSON texts and bare sentinels, joined to one array,
have the values they have one by one. Whatever an argument or an array holds, strings inside its
items are text and the sentinel is nowhere inside. -/
theorem argument_forms_agree :
    (∀ arguments : List String, (∀ argument ∈ arguments, FitsArray argument) →
        argumentValues (arrayText arguments) = .ok (arguments.map argumentValue))
      ∧ (∀ argument tree value, Json.parse? argument = some tree → tree.toValue? = some value →
        KeepsInside tree (argumentValue argument))
      ∧ (∀ array values, argumentValues array = .ok values →
        ∃ trees, Json.parse? array = some (.array trees) ∧ List.Forall₂ KeepsInside trees values)
      ∧ ∀ argument, ¬ Value.Below .skip (argumentValue argument) := by
  refine ⟨?_, ?_, ?_, not_below_skip_argumentValue⟩
  · intro arguments h
    exact argumentValues_arrayText h
  · intro argument tree value hparse hvalue
    rw [argumentValue_of_parse hparse hvalue]
    exact keepsInside_value hvalue
  · intro array values h
    -- What the array holds is related tree by tree to its values.
    obtain ⟨trees, items, hparse, hitems, rfl⟩ := exists_trees_of_argumentValues h
    refine ⟨trees, hparse, ?_⟩
    rw [List.forall₂_map_right_iff]
    rw [← List.forall₂_eq_eq_eq, List.forall₂_map_left_iff, List.forall₂_map_right_iff] at hitems
    exact hitems.imp fun _ _ hvalue => keepsInside_itemValue hvalue

/-- The sentinel, the same string inside an array, and a word with blanks around it. -/
theorem argument_forms_agree_nested :
    argumentValues "[\"@skip\",[\"@skip\"], null ]"
        = .ok (["@skip", "[\"@skip\"]", " null "].map argumentValue)
      ∧ KeepsInside (.array [.string "@skip"]) (argumentValue "[\"@skip\"]")
      ∧ (∃ trees, Json.parse? "[\"@skip\",[\"@skip\"], null ]" = some (.array trees)
        ∧ List.Forall₂ KeepsInside trees [.skip, .sequence [.text "@skip"], .null])
      ∧ ¬ Value.Below .skip (argumentValue "[\"@skip\"]") := by
  have hnested : Json.parse? "[\"@skip\"]" = some (.array [.string "@skip"]) := by cbv
  have hblank : Json.parse? " null " = some .null := by cbv
  have hfits : ∀ argument ∈ ["@skip", "[\"@skip\"]", " null "], FitsArray argument := by
    rw [List.forall_mem_cons, List.forall_mem_cons, List.forall_mem_singleton]
    refine ⟨Or.inl rfl, Or.inr ?_, Or.inr ?_⟩
    · exact ⟨_, .sequence [.text "@skip"], hnested, rfl, by decide, by simp⟩
    · exact ⟨_, .null, hblank, rfl, by decide, by simp⟩
  have harray : arrayText ["@skip", "[\"@skip\"]", " null "]
      = "[\"@skip\",[\"@skip\"], null ]" := by decide +kernel
  have hread : argumentValues "[\"@skip\",[\"@skip\"], null ]"
      = .ok [.skip, .sequence [.text "@skip"], .null] := by cbv
  obtain ⟨hagree, hinside, hitems, hskip⟩ := argument_forms_agree
  have hvalues := hagree _ hfits
  rw [harray] at hvalues
  exact ⟨hvalues, hinside _ _ _ hnested rfl, hitems _ _ hread, hskip _⟩

end SqlTemplate.CommandLine
