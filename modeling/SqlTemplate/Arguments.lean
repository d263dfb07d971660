import SqlTemplate.Value
import SqlTemplate.Error

/-!
Arguments, served one by one.

A cursor stands in a list of arguments and moves on by one place with every request, also with a
request that fails. Past the end it serves the skip sentinel or, when counts must be exact, fails.
-/

set_option autoImplicit false

namespace SqlTemplate

/-- A place in a list of arguments. -/
structure Cursor where
  arguments : List Value
  /-- Whether there must be exactly as many arguments as requests. -/
  strict : Bool
  /-- How many requests have been made. -/
  position : Nat

namespace Cursor

/-- A cursor before the first argument. -/
def start (arguments : List Value) (strict : Bool) : Cursor :=
  ⟨arguments, strict, 0⟩

/-- The cursor one place on. -/
def advance (cursor : Cursor) : Cursor :=
  { cursor with position := cursor.position + 1 }

/-- What a request is answered with at this place. -/
def current (cursor : Cursor) : Except Error Value :=
  match cursor.arguments[cursor.position]? with
  | some value => .ok value
  | none => if cursor.strict then .error (.missingArgument (cursor.position + 1)) else .ok .skip

/-- With exact counts, no argument may be left over. -/
def finish (cursor : Cursor) : Except Error Unit :=
  if cursor.strict ∧ cursor.position < cursor.arguments.length then
    .error (.tooManyArguments cursor.position cursor.arguments.length)
  else .ok ()

end Cursor

/-- A computation that takes arguments from a cursor and may fail; the cursor stays where a failure
left it. -/
abbrev Serving := ExceptT Error (StateM Cursor)

namespace Serving

/-- Take the next argument. -/
def next : Serving Value := fun cursor => (cursor.current, cursor.advance)

/-- A result that takes no argument; a failure ends the computation. -/
def ofResult {α : Type} (result : Except Error α) : Serving α := fun cursor => (result, cursor)

/-- The outcome of a computation, and where it left the cursor. -/
def outcome {α : Type} (action : Serving α) (cursor : Cursor) : Except Error α × Cursor :=
  action cursor

end Serving

end SqlTemplate
