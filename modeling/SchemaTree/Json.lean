import SchemaTree.Binary64

/-!
JSON data.  Integers and doubles are different numbers, and the members of an object are kept
sorted by key, in the order of code points, each key once.
-/

namespace SchemaTree

/-- A JSON value. -/
inductive Json where
  | null
  | bool (value : Bool)
  | int (value : Int)
  | float (value : Binary64)
  | string (value : String)
  | array (items : List Json)
  | object (members : List (String × Json))

namespace Json

/-- Sets a member, keeping the members sorted by key. -/
def insertMember : List (String × Json) → String → Json → List (String × Json)
  | [], key, value =>
      [(key, value)]
  | (other, old) :: rest, key, value =>
      if key < other then (key, value) :: (other, old) :: rest
      else if key = other then (key, value) :: rest
      else (other, old) :: insertMember rest key value

/-- The object with the given members; of two with one key, the later stays. -/
def ofMembers (members : List (String × Json)) : Json :=
  .object (members.foldl (fun sorted member => insertMember sorted member.1 member.2) [])

mutual

/-- Equality of data, with doubles compared as numbers. -/
def equal : Json → Json → Bool
  | .null, .null => true
  | .bool left, .bool right => left = right
  | .int left, .int right => left = right
  | .float left, .float right => left.equal right
  | .string left, .string right => left = right
  | .array left, .array right => equalItems left right
  | .object left, .object right => equalMembers left right
  | _, _ => false

def equalItems : List Json → List Json → Bool
  | [], [] => true
  | left :: lefts, right :: rights => left.equal right && equalItems lefts rights
  | _, _ => false

def equalMembers : List (String × Json) → List (String × Json) → Bool
  | [], [] => true
  | (leftKey, left) :: lefts, (rightKey, right) :: rights =>
      leftKey = rightKey && left.equal right && equalMembers lefts rights
  | _, _ => false

end

/-- The name of a member of an enumeration: a string, or an object whose only member has that name
and holds null. -/
def enumerator? : Json → Option String
  | .string name => some name
  | .object [(name, .null)] => some name
  | _ => none

end Json

end SchemaTree
