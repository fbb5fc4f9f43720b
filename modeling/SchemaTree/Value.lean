import SchemaTree.Binary64.Rounding
import SchemaTree.Calendar.DateTime
import SchemaTree.Field
import SchemaTree.NumericArray
import SchemaTree.ObjectId

/-!
Document values, in the form that callers see and in the form that a store holds.  Keys of dicts
are values too, since integer keys are stored as strings.
-/

namespace SchemaTree

open Calendar

/-- The key under which a stored or exchanged document names its type. -/
def classKey : String := "_cls"

/-- A value of a document's slot. -/
inductive Value where
  | null
  | bool (value : Bool)
  | int (value : Int64)
  | float (value : Binary64)
  | string (value : String)
  | objectId (value : ObjectId)
  | uuid (value : Uuid)
  | date (value : Date)
  | dateTime (value : DateTime)
  | binary (bytes : List UInt8)
  | array (value : NumericArray)
  | list (items : List Value)
  | dict (entries : List (Value × Value))
  /-- A document of a type, with its members by name, in order. -/
  | document (type : DocumentType) (members : List (String × Value))

namespace Value

def ofMembers (members : List (String × Value)) : Value :=
  .dict (members.map fun member => (.string member.1, member.2))

def points (pairs : List (Binary64 × Binary64)) : Value :=
  .list (pairs.map fun pair => .list [.float pair.1, .float pair.2])

def isNull : Value → Bool
  | null => true
  | _ => false

def isBool : Value → Bool
  | bool _ => true
  | _ => false

def isDict : Value → Bool
  | dict _ => true
  | _ => false

def isFloat : Value → Bool
  | float _ => true
  | _ => false

def isNumber : Value → Bool
  | int _ | float _ => true
  | _ => false

def items? : Value → Option (List Value)
  | list items => some items
  | _ => none

/-- The double that a number is or is nearest to. -/
def number? : Value → Option Binary64
  | int value => some (.ofInt value.toInt)
  | float value => some value
  | _ => none

/-- The value of the first entry with a string key. -/
def entry? (key : String) : List (Value × Value) → Option Value
  | [] =>
      none
  | (.string name, value) :: rest =>
      if name = key then some value else entry? key rest
  | _ :: rest =>
      entry? key rest

def get? (value : Value) (key : String) : Option Value :=
  match value with
  | dict entries => entry? key entries
  | _ => none

def typeName : Value → String
  | null => "null"
  | bool _ => "bool"
  | int _ => "int"
  | float _ => "float"
  | string _ => "string"
  | objectId _ => "objectid"
  | uuid _ => "uuid"
  | date _ => "date"
  | dateTime _ => "datetime"
  | binary _ => "binary"
  | array _ => "array"
  | list _ => "list"
  | dict _ => "dict"
  | document _ _ => "document"

mutual

/-- Equality of values.  Doubles are compared as numbers, points in time as such, the entries of
dicts in order, and documents by the names of their types and by their members in any order. -/
def equal : Value → Value → Bool
  | .null, .null => true
  | .bool left, .bool right => left = right
  | .int left, .int right => left = right
  | .float left, .float right => left.equal right
  | .string left, .string right => left = right
  | .objectId left, .objectId right => left = right
  | .uuid left, .uuid right => left = right
  | .date left, .date right => left = right
  | .dateTime left, .dateTime right => left.sameInstant right
  | .binary left, .binary right => left = right
  | .array left, .array right => left.equal right
  | .list left, .list right => equalItems left right
  | .dict left, .dict right => equalEntries left right
  | .document leftType left, .document rightType right =>
      leftType.name = rightType.name && left.length = right.length && membersWithin left right
  | _, _ => false

def equalItems : List Value → List Value → Bool
  | [], [] => true
  | left :: lefts, right :: rights => left.equal right && equalItems lefts rights
  | _, _ => false

def equalEntries : List (Value × Value) → List (Value × Value) → Bool
  | [], [] => true
  | (leftKey, left) :: lefts, (rightKey, right) :: rights =>
      leftKey.equal rightKey && left.equal right && equalEntries lefts rights
  | _, _ => false

/-- Whether every member has an equal one of its name among others. -/
def membersWithin : List (String × Value) → List (String × Value) → Bool
  | [], _ => true
  | (name, value) :: rest, others =>
      (match Mapping.lookup others name with
        | some other => value.equal other
        | none => false)
        && membersWithin rest others

end

end Value

/-- The value of a slot that was never set: empty for containers, null otherwise. -/
def Field.defaultValue (field : Field) : Value :=
  match field.kind with
  | .list _ _ => .list []
  | .dict _ _ => .dict []
  | _ => .null

end SchemaTree
