import SchemaTree.Binary64.Reader
import SchemaTree.Binary64.Shortest
import SchemaTree.Text.Blank
import SchemaTree.Value

/-!
Casts to numbers.  Booleans count as zero and one, texts are read without the blanks around them,
and doubles lose their fraction on the way to integers.
-/

namespace SchemaTree.Value

def quote (text : String) : String :=
  s!"'{text}'"

def describe : Value → String
  | string text => quote text
  | float value => value.text
  | other => other.typeName

/-- The double written in a text; a decimal beyond the range of doubles is refused. -/
def readFloat (text : String) : Except Violation Binary64 :=
  let trimmed := Text.trim text.toList
  match Binary64.read? trimmed with
  | none => .error (.notFloat text)
  | some value =>
      if value.isInfinite && trimmed.any Text.isDigit then .error .floatOverflow else .ok value

def toFloat : Value → Except Violation Binary64
  | bool value => .ok (.ofInt (if value then 1 else 0))
  | int value => .ok (.ofInt value.toInt)
  | float value => .ok value
  | string text => readFloat text
  | other => .error (.notFloat other.describe)

/-- The integer that a finite double is truncated to.  It has to be closer to zero than
`2 ^ 63`. -/
def truncateFloat (value : Binary64) : Except Violation Int64 :=
  if value.isFinite then
    if value.wholePart < twoTo 63 then .ok (Int64.ofInt value.truncate) else .error .intOverflow
  else .error (.notInt value.text)

def toInt : Value → Except Violation Int64
  | bool value => .ok (if value then 1 else 0)
  | int value => .ok value
  | float value => truncateFloat value
  | string text => match Text.readInt64? (Text.trim text.toList) with
    | some value => .ok value
    | none => .error (.notInt text)
  | other => .error (.notInt other.describe)

def truthOf : Value → Bool
  | bool value => value
  | _ => false

/-- The integer that a boolean or an integer counts as. -/
def integerOf : Value → Int64
  | int value => value
  | bool value => if value then 1 else 0
  | _ => 0

/-- The double that a boolean or a number counts as. -/
def floatOf : Value → Binary64
  | float value => value
  | int value => .ofInt value.toInt
  | bool value => .ofInt (if value then 1 else 0)
  | _ => .zero

/-- The elements of an array of booleans and numbers: doubles if there is a double among them,
booleans if there are only booleans, and integers otherwise. -/
def elementsOf (items : List Value) : ArrayData :=
  if items.any isFloat then .float (items.map floatOf)
  else if !items.isEmpty && items.all isBool then .bool (items.map truthOf)
  else .int (items.map integerOf)

def toArray (items : List Value) : Except Violation NumericArray :=
  match items.find? fun item => !(item.isNumber || item.isBool) with
  | some other => .error (.vectorItem other.typeName)
  | none => NumericArray.cover (NumericArray.rowShape (elementsOf items)) (elementsOf items)

end SchemaTree.Value
