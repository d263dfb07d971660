import SqlTemplate.CommandLine.ArgumentText
import SqlTemplate.Proofs.Format.Rejections
import SqlTemplate.Proofs.Json.Denotation
import SqlTemplate.Proofs.Json.Grammar

/-!
Values that come from JSON texts.

A value that is read from a text is what the tree denotes that is written in the text, and all that
is inside it is well formed (`json_values_well_formed`). So where literals are asked for, it can
only have the wrong shape: a list in the place of a scalar, a scalar in the place of a list, or a
list inside a list. No number and no sentinel inside it is ever in the way. The same goes for the
arguments of a command line, where a sentinel stands for itself and not inside another value.
-/

set_option autoImplicit false

namespace SqlTemplate

variable {v : Value} {m : Marker} {e : Error} {escape : Escaper}

/-- What a marker for literals has against the shape of a value. -/
inductive Marker.ShapeMisfit : Marker → Value → Error → Prop where
  | container {v : Value} (hv : v.kind ∈ [Kind.sequence, .mapping]) :
    ShapeMisfit scalar v (.shapeMismatch "?s" v.kind.name)
  | scalar {v : Value} (hv : v.kind ∈ [Kind.boolean, .integer, .float, .string]) :
    ShapeMisfit array v (.shapeMismatch "?a" v.kind.name)
  | nested {v part : Value} (hpart : Value.Part part v)
    (hkind : part.kind ∈ [Kind.sequence, .mapping]) :
    ShapeMisfit array v (.unquotable part.kind.name)

/-- Where a marker for literals fails, the shape is what it names. -/
def Value.FailsByShape (v : Value) : Prop :=
  ∀ (escape : Escaper) (m : Marker) (e : Error), m ∈ [Marker.scalar, .array] →
    m.format escape v = .error e → m.ShapeMisfit v e

namespace Value

/-- Of well-formed values only lists have no literal. -/
theorem Unquotable.kind_of_wellFormed (he : v.Unquotable e) (h : v.WellFormed) :
    v.kind ∈ [Kind.sequence, .mapping] ∧ e = .unquotable v.kind.name := by
  cases he with
  | sequence => exact ⟨by simp [kind], rfl⟩
  | mapping => exact ⟨by simp [kind], rfl⟩
  | skip => exact absurd rfl h.ne_skip
  | infinite hinfinite =>
    rw [h.isFinite rfl] at hinfinite
    exact absurd hinfinite (by simp)

/-- A finite value with well-formed parts fails by shape only. -/
theorem failsByShape_of_parts (hfloat : ∀ x : Binary64, v = .float x → x.isFinite = true)
    (hparts : ∀ part, Part part v → part.WellFormed) : v.FailsByShape := by
  intro escape m e hm herror
  -- An item without a literal can only be a list.
  have hpart {part : Value} (h : Part part v) (he : part.Unquotable e) :
      Marker.array.ShapeMisfit v e := by
    obtain ⟨hkind, rfl⟩ := he.kind_of_wellFormed (hparts part h)
    exact .nested h hkind
  cases Marker.format_eq_error_iff.mp herror with
  | container hmarker hv =>
    obtain rfl : m = .scalar := by
      cases m with
      | scalar => rfl
      | array => exact absurd hmarker (by decide)
      | integer | float | identifier => exact absurd hm (by decide)
    exact .container hv
  | number hmarker hinfinite =>
    rw [hfloat _ rfl] at hinfinite
    exact absurd hinfinite (by simp)
  | text => exact absurd hm (by decide)
  | scalar hv => exact .scalar hv
  | item he hfirst => exact hpart (.item hfirst.mem) he
  | entry he hfirst => exact hpart (.entry hfirst.mem) he
  | nameless => exact absurd hm (by decide)
  | name => exact absurd hm (by decide)

theorem failsByShape_of_inside (h : ∀ inner, Inside inner v → inner.WellFormed) :
    v.FailsByShape :=
  failsByShape_of_parts (fun _ hx => (h v .refl).isFinite hx) fun part hpart =>
    h part (.single hpart)

theorem failsByShape_skip : FailsByShape skip :=
  failsByShape_of_parts nofun nofun

theorem failsByShape_text (content : String) : FailsByShape (.text content) :=
  failsByShape_of_parts nofun nofun

end Value

namespace Json

variable {tree : Json} {value inner : Value} {text : String}

/-- What is inside a denoted value fails by its shape only, as all that is inside of it is inside
the denoted value too. -/
theorem Denotes.failsByShape (h : tree.Denotes value) (hinside : Value.Inside inner value) :
    inner.FailsByShape :=
  Value.failsByShape_of_inside fun _ hinner => h.wellFormed_of_inside (hinner.trans hinside)

/-- A value that is read is denoted by the tree that is written. -/
theorem exists_denotes_of_readValue? (h : readValue? text = some value) :
    ∃ tree : Json, parse? text = some tree ∧ IsText tree text.toList ∧ tree.Denotes value := by
  obtain ⟨tree, htree, hvalue⟩ := Option.bind_eq_some_iff.mp h
  exact ⟨tree, htree, isText_of_parse? htree, denotes_of_toValue? hvalue⟩

end Json

/-! ## Arguments of a command line -/

namespace CommandLine

/-- What a command line takes from a text that is one argument, or the array of all arguments. -/
inductive Takes (text : String) : Value → Prop where
  | alone : Takes text (argumentValue text)
  | item {values : List Value} {v : Value} (h : argumentValues text = .ok values)
    (hv : v ∈ values) : Takes text v

/-- An item of the array of arguments fails by shape only, if its value does. -/
theorem failsByShape_itemValue (h : v.FailsByShape) : (itemValue v).FailsByShape := by
  unfold itemValue
  split
  · split_ifs
    · exact Value.failsByShape_skip
    · exact h
  · exact h

/-- Whatever a command line takes from a text fails by shape only. -/
theorem Takes.failsByShape {text : String} (h : Takes text v) : v.FailsByShape := by
  cases h with
  | alone =>
    rw [argumentValue]
    split_ifs
    · exact Value.failsByShape_skip
    · cases hread : Json.readValue? text with
      -- What is no JSON is text.
      | none => exact Value.failsByShape_text text
      | some value =>
        obtain ⟨tree, -, -, hvalue⟩ := Json.exists_denotes_of_readValue? hread
        exact hvalue.failsByShape .refl
  | item hvalues hv =>
    rw [argumentValues] at hvalues
    split at hvalues
    · rename_i items hread
      obtain rfl := Except.ok.inj hvalues
      obtain ⟨item, hitem, rfl⟩ := List.mem_map.mp hv
      obtain ⟨tree, -, -, hvalue⟩ := Json.exists_denotes_of_readValue? hread
      exact failsByShape_itemValue (hvalue.failsByShape (.single (.item hitem)))
    · exact absurd hvalues (by simp)
    · exact absurd hvalues (by simp)

end CommandLine

/-- **Values from JSON are well formed at every depth.** A value that is read from a text is what
the tree that is written there denotes, and the only such value: integers are exact, arrays keep
their order, and a mapping has each name once, in the order of first occurrence, with what its last
member denotes. Neither the value nor anything inside it is the skip sentinel, an infinite float or
a mapping with a repeated name. So for all of these, and for what a command line takes from a text,
the markers for literals fail by shape only. -/
theorem json_values_well_formed (text : String) :
    (∀ value, Json.readValue? text = some value →
      ∃ tree, Json.parse? text = some tree ∧ Json.IsText tree text.toList
        ∧ tree.Denotes value ∧ (∀ other, tree.Denotes other → other = value)
        ∧ ∀ inner, Value.Inside inner value → inner.WellFormed ∧ inner.FailsByShape)
      ∧ ∀ v, CommandLine.Takes text v → v.FailsByShape := by
  refine ⟨fun value h => ?_, fun v h => h.failsByShape⟩
  obtain ⟨tree, htree, htext, hvalue⟩ := Json.exists_denotes_of_readValue? h
  exact ⟨tree, htree, htext, hvalue, fun other hother => hother.unique hvalue,
    fun inner hinner => ⟨hvalue.wellFormed_of_inside hinner, hvalue.failsByShape hinner⟩⟩

/-- The name `b` comes twice: it keeps its first place and has its last value. The number `-7` is an
integer, and `1.5` is a float. -/
theorem json_values_well_formed_repeated :
    (∃ tree, Json.IsText tree "\x7b\"b\":true, \"a\":-7, \"b\":[[\"c\"], 1.5]\x7d".toList
        ∧ tree.Denotes (.mapping
          [("b", .sequence [.sequence [.text "c"], .float ⟨0x3FF8000000000000⟩]),
            ("a", .int (-7))]))
      ∧ (Value.sequence [.sequence [.text "c"], .float ⟨0x3FF8000000000000⟩]).WellFormed
      ∧ (Value.sequence [.sequence [.text "c"], .float ⟨0x3FF8000000000000⟩]).FailsByShape := by
  have hparse : Json.parse? "\x7b\"b\":true, \"a\":-7, \"b\":[[\"c\"], 1.5]\x7d"
      = some (.object [("b", .bool true), ("a", .number ⟨true, ['7'], none, none⟩),
        ("b", .array [.array [.string "c"], .number ⟨false, ['1'], some ['5'], none⟩])]) := by
    rfl
  have hinteger : Json.numberValue? ⟨true, ['7'], none, none⟩ = some (.int (-7)) := rfl
  have hnone : Json.integerOf? ⟨false, ['1'], some ['5'], none⟩ = none := by decide +kernel
  have hsome : Json.floatOf? ⟨false, ['1'], some ['5'], none⟩ = some ⟨0x3FF8000000000000⟩ := by
    decide +kernel
  have hfloat : Json.numberValue? ⟨false, ['1'], some ['5'], none⟩
      = some (.float ⟨0x3FF8000000000000⟩) := by
    rw [Json.numberValue?, hnone, hsome]
    rfl
  have hread : Json.readValue? "\x7b\"b\":true, \"a\":-7, \"b\":[[\"c\"], 1.5]\x7d"
      = some (.mapping
        [("b", .sequence [.sequence [.text "c"], .float ⟨0x3FF8000000000000⟩]),
          ("a", .int (-7))]) := by
    rw [Json.readValue?, hparse, Option.bind_some]
    simp only [Json.toValue?, Json.membersToValues?, Json.itemsToValues?, hinteger, hfloat]
    rfl
  obtain ⟨hvalues, -⟩ :=
    json_values_well_formed "\x7b\"b\":true, \"a\":-7, \"b\":[[\"c\"], 1.5]\x7d"
  obtain ⟨tree, -, htext, hvalue, -, hinside⟩ := hvalues _ hread
  exact ⟨⟨tree, htext, hvalue⟩, hinside _ (.single (.entry List.mem_cons_self))⟩

end SqlTemplate
