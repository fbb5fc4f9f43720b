import SchemaTree.Binary64.Rounding
import SchemaTree.Json

/-!
Parts of JSON data: readers of one kind of value each, and the members that are written for values
that may be absent.
-/

namespace SchemaTree.Json

def text? : Json → Option String
  | string text => some text
  | _ => none

def truth? : Json → Option Bool
  | bool value => some value
  | _ => none

def number? : Json → Option Binary64
  | int value => some (.ofInt value)
  | float value => some value
  | _ => none

def members? : Json → Option (List (String × Json))
  | object members => some members
  | _ => none

def texts? : Json → Option (List String)
  | array items => items.mapM text?
  | _ => none

/-- Reads null as nothing, and all else by a reader. -/
def nullOr {α : Type} (read : Json → Option α) : Json → Option (Option α)
  | null => some none
  | json => (read json).map some

def present? : Json → Option Json :=
  some

/-- A double as a number; what is not finite is written as null. -/
def ofFloat (value : Binary64) : Json :=
  if value.isFinite then .float value else .null

def optionalMember {α : Type} (key : String) (write : α → Json) (value : Option α) :
    List (String × Json) :=
  match value with
  | some value => [(key, write value)]
  | none => []

def orNull {α : Type} (write : α → Json) : Option α → Json
  | some value => write value
  | none => .null

end SchemaTree.Json
