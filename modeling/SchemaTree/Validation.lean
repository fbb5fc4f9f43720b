import SchemaTree.DocumentType
import SchemaTree.Geometry
import SchemaTree.Path
import SchemaTree.Value.Cast

/-!
Validation of values.  Null passes unless a field is required.  Other values have to fit the kind:
containers check their elements, embedded documents their type and members, and lists of a fixed
shape the first element of each level.  Errors name the innermost path that fails.
-/

namespace SchemaTree

def located {α : Type} (path : String) : Except Violation α → Except Error α
  | .ok value => .ok value
  | .error violation => .error (.invalid (some path) violation)

/-- Succeeds if a rule holds, and is its violation otherwise. -/
def ensure (holds : Bool) (violation : Violation) : Except Violation Unit :=
  if holds then .ok () else .error violation

namespace Value

def numberPair? (value : Value) : Option (Binary64 × Binary64) :=
  match value.items? with
  | some [first, second] =>
      first.number?.bind fun left => second.number?.map fun right => (left, right)
  | _ => none

def isPair (value : Value) : Bool :=
  match value.items? with
  | some items => items.length = 2
  | none => false

/-- Whether the first of some points, if there is one, is a list of two items. -/
def startsWithPair (points : List Value) : Bool :=
  match points.head? with
  | some point => point.isPair
  | none => true

/-- Whether a value is a pair of a least and a greatest number. -/
def isRange (value : Value) : Bool :=
  match value.numberPair? with
  | some (least, greatest) => least.le greatest
  | none => false

/-- Whether a value is a pair of a first and a last frame number. -/
def isFrameRange (value : Value) : Bool :=
  match value.numberPair? with
  | some (first, last) => (Binary64.ofInt 1).le first && first.le last
  | none => false

/-- Whether a value is a list or an array of points. -/
def isKeypoints : Value → Bool
  | list points => startsWithPair points
  | array points => points.shape.length = 2 && points.shape[1]? = some 2
  | _ => false

/-- Whether a value is a list of lists of points. -/
def isPolyline (value : Value) : Bool :=
  match value.items? with
  | some [] => true
  | some (shape :: _) => match shape.items? with
    | some points => startsWithPair points
    | none => false
  | none => false

def keyLabel : Value → String
  | string text => text
  | int value => Text.showInt value.toInt
  | other => other.typeName

/-- Whether a value is the text of an object identifier. -/
def isObjectIdText : Value → Bool
  | string text => (ObjectId.read? text).isSome
  | _ => false

/-- Whether a value is the text of a universally unique identifier. -/
def isUuidText : Value → Bool
  | string text => (Uuid.read? text).isSome
  | _ => false

/-- The members of a document whose type derives from a given one. -/
def membersOf (type : DocumentType) : Value → Except Violation (List (String × Value))
  | document found members =>
      if found.isSubclassOf type then .ok members
      else .error (.notDocument type.name found.name)
  | other => .error (.notDocument type.name other.typeName)

end Value

/-- Checks a list of a flavor, whose items come back if the element field has to check them, each
with its place. -/
def ListFlavor.itemsOf (flavor : ListFlavor) (value : Value) :
    Except Violation (List (Nat × Value)) :=
  match flavor with
  | .heatmapRange => (ensure value.isRange .notHeatmapRange).map fun _ => []
  | .frameSupport => (ensure value.isFrameRange .notFrameSupport).map fun _ => []
  | .keypoints => (ensure value.isKeypoints .notKeypoints).map fun _ => []
  | .polylinePoints => (ensure value.isPolyline .notPolylinePoints).map fun _ => []
  | .plain | .classes | .embeddedDocuments => match value.items? with
    | some items => .ok (items.zipIdx.map Prod.swap)
    | none => .error .notList

/-- Checks a dict of a flavor and its keys, and gives its entries. -/
def DictFlavor.entriesOf (flavor : DictFlavor) (value : Value) :
    Except Violation (List (Value × Value)) :=
  match value with
  | .dict entries =>
      let fits : Value → Bool := fun key => match key with
        | .string _ => !flavor.hasIntKeys
        | .int _ => flavor.hasIntKeys
        | _ => false
      if entries.all fun entry => fits entry.1 then .ok entries
      else .error (if flavor.hasIntKeys then .keyNotInt else .keyNotString)
  | _ => .error .notDict

namespace Kind

/-- Checks a double against bounds; a double that has no order keeps all of them. -/
def checkBounds (least greatest : Option Binary64) (value : Binary64) : Except Violation Unit :=
  (ensure (least.all fun bound => !value.lt bound) .belowMinimum).bind fun _ =>
    ensure (greatest.all fun bound => !bound.lt value) .aboveMaximum

def checkFrameNumber : Value → Except Violation Unit
  | .int number => ensure (1 ≤ number.toInt) (.frameNumberRange number.toInt)
  | other => .error (.notFrameNumber other.typeName)

/-- Checks a vector, which has numbers and booleans in one dimension. -/
def checkVector : Value → Except Violation Unit
  | .array value => ensure (value.dimensions ≤ 1) .vectorDimensions
  | .binary _ => .ok ()
  | .list items =>
      ensure (items.all fun item => item.isNumber || item.isBool) .vectorNotNumeric
  | _ => .error .notVector

/-- Checks a value against a kind that has no fields inside. -/
def checkScalar : Kind → Value → Except Violation Unit
  | objectId, .objectId _ => .ok ()
  | objectId, value => ensure value.isObjectIdText (.notObjectId value.describe)
  | uuid, .uuid _ => .ok ()
  | uuid, value => ensure value.isUuidText (.notUuid value.describe)
  | boolean, value => ensure value.isBool .notBoolean
  | int, value => value.toInt.map fun _ => ()
  | frameNumber, value => checkFrameNumber value
  | float least greatest, value => value.toFloat.bind (checkBounds least greatest)
  | string, .string _ => .ok ()
  | string, _ => .error .notString
  | date, .date _ => .ok ()
  | date, _ => .error .notDate
  | dateTime, .dateTime _ => .ok ()
  | dateTime, _ => .error .notDateTime
  | geo geometry, value => Geometry.check geometry value
  | vector, value => checkVector value
  | array, .array _ | array, .binary _ => .ok ()
  | array, _ => .error .notArray
  | _, _ => .ok ()

end Kind

def Field.checkMissing (field : Field) (path : String) : Except Error Unit :=
  if field.required then .error (.invalid (some path) .required) else .ok ()

mutual

/-- Checks a value that is not null against a field, with errors at a path. -/
def Field.check (path : String) (value : Value) : Field → Except Error Unit
  | ⟨_, .list flavor none⟩ =>
      (located path (flavor.itemsOf value)).map fun _ => ()
  | ⟨_, .list flavor (some element)⟩ =>
      (located path (flavor.itemsOf value)).bind <| checkEach fun entry =>
        if entry.2.isNull then .ok () else element.check (Path.item path entry.1) entry.2
  | ⟨_, .dict flavor none⟩ =>
      (located path (flavor.entriesOf value)).map fun _ => ()
  | ⟨_, .dict flavor (some element)⟩ =>
      (located path (flavor.entriesOf value)).bind <| checkEach fun entry =>
        if entry.2.isNull then .ok ()
        else element.check (Path.below path entry.1.keyLabel) entry.2
  | ⟨_, .embedded nested⟩ => nested.check path value
  | ⟨_, kind⟩ => located path (kind.checkScalar value)
  termination_by structural field => field

/-- Checks a document against an embedded document: its type first, and then its members. -/
def Embedded.check (path : String) (value : Value) : Embedded → Except Error Unit
  | ⟨documentType, _, _, fields, _⟩ =>
      (located path (value.membersOf documentType)).bind fun members =>
        checkMembers path members fields
  termination_by structural nested => nested

/-- Checks members against effective fields, in the order of the fields.  A member without a field
is not checked. -/
def checkMembers (path : String) (members : List (String × Value)) :
    List (String × Field) → Except Error Unit
  | [] => .ok ()
  | (name, field) :: rest =>
      let here := Path.below path name
      let value := (Mapping.lookup members name).getD .null
      (if value.isNull then field.checkMissing here else field.check here value).bind fun _ =>
        checkMembers path members rest
  termination_by structural fields => fields

end

namespace Field

def validateAt (field : Field) (path : String) (value : Value) : Except Error Unit :=
  if value.isNull then field.checkMissing path else field.check path value

/-- Validates a value, with errors where the field is. -/
def validate (field : Field) (value : Value) : Except Error Unit :=
  field.validateAt field.location value

end Field

end SchemaTree
