import SqlTemplate.Binary64.Rounding

/-!
Argument values.

A value is what a caller hands to a placeholder: nothing, a scalar, a list, a list of named values,
or the skip sentinel, which drops the block around its placeholder. Names of a mapping keep their
order and may repeat. Integers have 64 bits with a sign.
-/

set_option autoImplicit false

namespace SqlTemplate

/-- An argument for a placeholder. -/
inductive Value where
  | null
  | bool (truth : Bool)
  | int (number : Int64)
  | float (number : Binary64)
  | text (content : String)
  | sequence (items : List Value)
  | mapping (entries : List (String × Value))
  /-- Leave this argument out, and the block that holds its placeholder. -/
  | skip
  deriving Repr

/-- The shape of a value. -/
inductive Kind where
  | null | boolean | integer | float | string | sequence | mapping | skip
  deriving DecidableEq, Repr

/-- The name of a shape in reports. -/
def Kind.name : Kind → String
  | null => "null"
  | boolean => "boolean"
  | integer => "integer"
  | float => "float"
  | string => "string"
  | sequence => "sequence"
  | mapping => "mapping"
  | skip => "skip"

namespace Value

/-- The shape of a value. -/
def kind : Value → Kind
  | null => .null
  | bool _ => .boolean
  | int _ => .integer
  | float _ => .float
  | text _ => .string
  | sequence _ => .sequence
  | mapping _ => .mapping
  | skip => .skip

/-- Whether a value is the skip sentinel. -/
def isSkip : Value → Bool
  | skip => true
  | _ => false

/-! ## Equality

Values of different shapes differ, also where their SQL would be the same. Numbers compare as
numbers do: the two float zeros are equal, and a float that is no number equals nothing. -/

mutual

/-- Equality of values. -/
def same : Value → Value → Bool
  | null, null => true
  | bool a, bool b => a == b
  | int a, int b => a == b
  | float a, float b => a.sameValue b
  | text a, text b => a == b
  | sequence as, sequence bs => sameItems as bs
  | mapping as, mapping bs => sameEntries as bs
  | skip, skip => true
  | _, _ => false

/-- Equality of two lists of values, place by place. -/
def sameItems : List Value → List Value → Bool
  | [], [] => true
  | a :: as, b :: bs => a.same b && sameItems as bs
  | _, _ => false

/-- Equality of two lists of named values, place by place. -/
def sameEntries : List (String × Value) → List (String × Value) → Bool
  | [], [] => true
  | (k, a) :: as, (l, b) :: bs => k == l && a.same b && sameEntries as bs
  | _, _ => false

end

instance : BEq Value := ⟨same⟩

end Value

/-! ## Values from data of other types -/

/-- Types whose data can stand as arguments. -/
class ToValue (α : Type) where
  toValue : α → Value

export ToValue (toValue)

instance : ToValue Value := ⟨id⟩

instance : ToValue Bool := ⟨.bool⟩

instance : ToValue Int64 := ⟨.int⟩

instance : ToValue Int32 := ⟨fun n => .int n.toInt64⟩

instance : ToValue Int16 := ⟨fun n => .int n.toInt64⟩

instance : ToValue Int8 := ⟨fun n => .int n.toInt64⟩

instance : ToValue UInt32 := ⟨fun n => .int (Int64.ofNat n.toNat)⟩

instance : ToValue UInt16 := ⟨fun n => .int (Int64.ofNat n.toNat)⟩

instance : ToValue UInt8 := ⟨fun n => .int (Int64.ofNat n.toNat)⟩

instance : ToValue Binary64 := ⟨.float⟩

instance : ToValue Binary32 := ⟨fun x => .float x.widen⟩

instance : ToValue String := ⟨.text⟩

/-- Data that is absent is null. -/
instance {α : Type} [ToValue α] : ToValue (Option α) :=
  ⟨fun | none => .null | some a => toValue a⟩

instance {α : Type} [ToValue α] : ToValue (List α) :=
  ⟨fun items => .sequence (items.map toValue)⟩

end SqlTemplate
