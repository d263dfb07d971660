import SqlTemplate.Json.Number
import SqlTemplate.Named

/-!
JSON texts as trees, and the values they stand for.

A tree keeps what was written: numerals with their digits, and the members of an object in order
with repeated names. Turning a tree into a value gives every numeral its value, and makes of the
members a mapping in which each name stands once: where it first stood, with what it last named.
-/

set_option autoImplicit false

namespace SqlTemplate

/-- A JSON text as a tree. -/
inductive Json where
  | null
  | bool (truth : Bool)
  | number (numeral : Numeral)
  | string (content : String)
  | array (items : List Json)
  | object (members : List (String × Json))
  deriving Repr

namespace Json

/-- Named values with each name once: at its first place, with its last value. -/
def merge {α : Type} (members : Named α) : Named α :=
  members.foldl (fun merged (name, value) => Named.set name value merged) []

mutual

/-- The value of a tree; none if a number in it is out of range. -/
def toValue? : Json → Option Value
  | null => some .null
  | bool truth => some (.bool truth)
  | number numeral => numberValue? numeral
  | string content => some (.text content)
  | array items => (itemsToValues? items).map .sequence
  | object members => (membersToValues? members).map fun entries => .mapping (merge entries)

/-- The values of the items of an array, in order. -/
def itemsToValues? : List Json → Option (List Value)
  | [] => some []
  | item :: rest =>
    match item.toValue?, itemsToValues? rest with
    | some value, some values => some (value :: values)
    | _, _ => none

/-- The values of the members of an object, in order and with repeated names. -/
def membersToValues? : List (String × Json) → Option (List (String × Value))
  | [] => some []
  | (name, member) :: rest =>
    match member.toValue?, membersToValues? rest with
    | some value, some entries => some ((name, value) :: entries)
    | _, _ => none

end

end Json

end SqlTemplate
