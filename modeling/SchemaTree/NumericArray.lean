import SchemaTree.Binary64
import SchemaTree.Error

/-!
Dense arrays of booleans, integers or doubles, stored row by row.  The shape of an array covers
its elements exactly: the product of the sizes is the number of elements, and no partial product
leaves the range of 64-bit sizes.
-/

namespace SchemaTree

/-- The elements of an array, in row-major order. -/
inductive ArrayData where
  | bool (values : List Bool)
  | int (values : List Int64)
  | float (values : List Binary64)
  deriving DecidableEq, Repr

/-- The type of an array's elements. -/
inductive ElementType where
  | bool
  | int64
  | float64
  deriving DecidableEq, Repr

namespace ElementType

def name : ElementType → String
  | bool => "bool"
  | int64 => "int64"
  | float64 => "float64"

/-- The number that stands for an element type in a blob. -/
def tag : ElementType → Nat
  | bool => 0
  | int64 => 1
  | float64 => 2

def ofTag? : Nat → Option ElementType
  | 0 => some bool
  | 1 => some int64
  | 2 => some float64
  | _ => none

def size : ElementType → Nat
  | bool => 1
  | int64 => 8
  | float64 => 8

theorem ofTag?_tag (type : ElementType) : ofTag? type.tag = some type := by
  cases type <;> rfl

theorem eq_tag_of_ofTag? {number : Nat} {type : ElementType}
    (found : ofTag? number = some type) : number = type.tag := by
  unfold ofTag? at found
  split at found <;> cases found <;> rfl

theorem size_pos (type : ElementType) : 0 < type.size := by
  cases type <;> decide

end ElementType

namespace ArrayData

def length : ArrayData → Nat
  | bool values => values.length
  | int values => values.length
  | float values => values.length

def elementType : ArrayData → ElementType
  | bool _ => .bool
  | int _ => .int64
  | float _ => .float64

/-- Equality of elements, one by one, with doubles compared as numbers. -/
def equal : ArrayData → ArrayData → Bool
  | bool left, bool right => left = right
  | int left, int right => left = right
  | float left, float right =>
      left.length = right.length && (left.zip right).all fun pair => pair.1.equal pair.2
  | _, _ => false

end ArrayData

/-- The product of sizes, multiplied from the left while it is below `2 ^ 64`. -/
def elementCountFrom : Nat → List UInt64 → Option Nat
  | count, [] =>
      some count
  | count, size :: sizes =>
      if count * size.toNat < UInt64.size then elementCountFrom (count * size.toNat) sizes else none

def elementCount (shape : List UInt64) : Option Nat :=
  elementCountFrom 1 shape

/-- A dense array. -/
structure NumericArray where
  shape : List UInt64
  data : ArrayData
  covers : elementCount shape = some data.length
  deriving DecidableEq, Repr

namespace NumericArray

/-- The array of a shape and elements, or the rule that a shape breaks which does not cover the
elements exactly. -/
def cover (shape : List UInt64) (data : ArrayData) : Except Violation NumericArray :=
  match counted : elementCount shape with
  | none => .error (.shapeOverflow shape)
  | some count =>
      if same : count = data.length then .ok ⟨shape, data, same ▸ counted⟩
      else .error (.shapeMismatch shape count data.length)

/-- The array of a shape and elements, if the shape covers the elements exactly. -/
def ofShape (shape : List UInt64) (data : ArrayData) : Except Error NumericArray :=
  (cover shape data).mapError (Error.invalid none)

def rowShape (data : ArrayData) : List UInt64 :=
  [UInt64.ofNat data.length]

def vector (data : ArrayData) : Except Error NumericArray :=
  ofShape (rowShape data) data

def dimensions (array : NumericArray) : Nat :=
  array.shape.length

/-- Equality of shape and elements, with doubles compared as numbers. -/
def equal (left right : NumericArray) : Bool :=
  left.shape = right.shape && left.data.equal right.data

end NumericArray

end SchemaTree
