import SchemaTree.FieldType

/-!
Failures of schema operations.  An error is one of eight kinds, each carrying the cause that the
operation met; the wording of every cause is in this module, and nowhere else.
-/

namespace SchemaTree

/-- Stands in a message for the reason a text or a stream was refused, which is not disclosed. -/
def undisclosed : String := "*"

/-- A list of sizes in brackets, separated by a comma and a blank. -/
def showShape (shape : List UInt64) : String :=
  "[" ++ ", ".intercalate (shape.map fun size => toString size.toNat) ++ "]"

/-- Why a set of constraints or query options is malformed. -/
inductive ConstraintFault where
  /-- A text that names no field type. -/
  | unknownFieldType (text : String)
  /-- An empty list of field types. -/
  | noFieldTypes
  /-- Document types next to a field type that holds no documents. -/
  | notEmbedded (type : FieldType)
  /-- An empty list of document types. -/
  | noDocumentTypes
  /-- A document type name registered twice. -/
  | typeTaken (name : String)
  /-- A name that no registered document type has. -/
  | unknownType (name : String)
  /-- A text that names no flatten mode. -/
  | unknownMode (text : String)
  /-- Query options that do not read as such. -/
  | options
  /-- A cause put into words by the caller. -/
  | stated (constraint detail : String)
  deriving DecidableEq, Repr

namespace ConstraintFault

def constraint : ConstraintFault → String
  | unknownFieldType _ | noFieldTypes => "ftype"
  | notEmbedded _ | noDocumentTypes | typeTaken _ | unknownType _ => "embedded_doc_type"
  | unknownMode _ => "mode"
  | options => "query"
  | stated constraint _ => constraint

def detail : ConstraintFault → String
  | unknownFieldType text =>
      s!"unknown field type '{text}'"
  | noFieldTypes =>
      "at least one field type is required"
  | notEmbedded type =>
      "embedded_doc_type can only be specified if ftype is a subtype of "
        ++ s!"{FieldType.embeddedDocument.typeName}; found {type.typeName}"
  | noDocumentTypes =>
      "at least one document type is required"
  | typeTaken name =>
      s!"document type '{name}' is already registered"
  | unknownType name =>
      s!"'{name}' is not a registered embedded document type"
  | unknownMode text =>
      s!"Invalid mode={text}. Supported modes are (\"before\", \"after\", \"both\")"
  | options =>
      "Malformed query options: " ++ undisclosed
  | stated _ detail =>
      detail

end ConstraintFault

/-- The rule that a value, a name or a shape breaks. -/
inductive Violation where
  | required
  | fieldName (name : String)
  | typeNameEmpty
  | defaultRepeated (type field : String)
  | shapeOverflow (shape : List UInt64)
  | shapeMismatch (shape : List UInt64) (expected found : Nat)
  | notObjectId (shown : String)
  | notUuid (shown : String)
  | notBoolean
  | notFloat (shown : String)
  | floatOverflow
  | notInt (shown : String)
  | intOverflow
  | frameNumberRange (number : Int)
  | notFrameNumber (kind : String)
  | belowMinimum
  | aboveMaximum
  | notString
  | notDate
  | notDateTime
  | notHeatmapRange
  | notFrameSupport
  | notKeypoints
  | notPolylinePoints
  | notList
  | notDict
  | keyNotString
  | keyNotInt
  | geoDict
  | notPoint (kind : String)
  | pointSize (count : Nat)
  | pointNotNumeric
  | notLineString (kind : String)
  | lineTooShort
  | notPolygon (kind : String)
  | noRings
  | ringTooShort
  | ringOpen
  | notCollection (geometry kind : String)
  | vectorDimensions
  | vectorNotNumeric
  | notVector
  | vectorItem (kind : String)
  | notArray
  | notDocument (expected found : String)
  /-- A rule put into words by the caller. -/
  | stated (rule : String)
  deriving DecidableEq, Repr

def Violation.rule : Violation → String
  | required => "Field is required"
  | fieldName name =>
      s!"Invalid field name '{name}'; names cannot be empty, contain '.', or start with '$'"
  | typeNameEmpty => "Document type name cannot be empty"
  | defaultRepeated type field => s!"Document type '{type}' declares field '{field}' twice"
  | shapeOverflow shape => s!"Array shape {showShape shape} overflows the element count"
  | shapeMismatch shape expected found =>
      s!"Array shape {showShape shape} requires {expected} elements, found {found}"
  | notObjectId shown => s!"{shown} is not a valid ObjectId"
  | notUuid shown => s!"Could not convert {shown} to UUID"
  | notBoolean => "Boolean fields only accept boolean values"
  | notFloat shown => s!"{shown} could not be converted to float"
  | floatOverflow => "The value is too large to be converted to float"
  | notInt shown => s!"{shown} could not be converted to int"
  | intOverflow => "The value is too large to be converted to int"
  | frameNumberRange number => s!"Frame numbers must be 1-based integers; found {number}"
  | notFrameNumber kind => s!"Frame numbers must be integers; found {kind}"
  | belowMinimum => "Float value is too small"
  | aboveMaximum => "Float value is too large"
  | notString => "String fields only accept string values"
  | notDate => "Date fields must have `date` values"
  | notDateTime => "Datetime fields must have `datetime` values"
  | notHeatmapRange => "Heatmap range fields must contain `[min, max]` ranges"
  | notFrameSupport => "Frame support fields must contain `[first, last]` frame numbers"
  | notKeypoints => "Keypoints fields must contain a list of (x, y) pairs"
  | notPolylinePoints => "Polyline points fields must contain a list of lists of (x, y) pairs"
  | notList => "Only lists and tuples may be used in a list field"
  | notDict => "Value must be a dict"
  | keyNotString => "Dict fields must have string keys"
  | keyNotInt => "Int dict fields must have integer keys"
  | geoDict => "Geo fields expect coordinate lists, but found dict"
  | notPoint kind => s!"Points must be lists of [x, y]; found {kind}"
  | pointSize count => s!"Points must be two-dimensional; found {count} coordinates"
  | pointNotNumeric => "Both values in a point must be float or int"
  | notLineString kind => s!"LineStrings must be lists of points; found {kind}"
  | lineTooShort => "LineStrings must contain at least two points"
  | notPolygon kind => s!"Polygons must be lists of rings; found {kind}"
  | noRings => "Polygons must contain at least one ring"
  | ringTooShort => "Polygon rings must contain at least four points"
  | ringOpen => "Polygon rings must start and end at the same point"
  | notCollection geometry kind => s!"{geometry} values must be lists; found {kind}"
  | vectorDimensions => "Only 1D arrays may be used in a vector field"
  | vectorNotNumeric => "Vector fields only accept numeric sequences"
  | notVector => "Only numeric arrays, lists, and tuples may be used in a vector field"
  | vectorItem kind => s!"Vector fields only accept numeric sequences; found {kind}"
  | notArray => "Only numeric arrays may be used in an array field"
  | notDocument expected found => s!"Expected {expected}; found {found}"
  | stated rule => rule

/-- A change of state that the life of a field forbids. -/
inductive TransitionFault where
  | alreadyVirtual
  | regularToVirtual
  | virtualToRegular
  | nameTaken (old new : String)
  /-- A cause put into words by the caller. -/
  | stated (detail : String)
  deriving DecidableEq, Repr

def TransitionFault.detail : TransitionFault → String
  | alreadyVirtual => "field is already virtual"
  | regularToVirtual => "Regular fields cannot be transformed into virtual fields"
  | virtualToRegular => "Virtual fields cannot be transformed into regular fields"
  | nameTaken old new =>
      s!"cannot rename '{old}' to '{new}': a field with that name already exists"
  | stated detail => detail

/-- Why an operation needs a field to be attached. -/
inductive DetachedFault where
  | unattached
  | otherDataset (owner store : String)
  /-- A cause put into words by the caller. -/
  | stated (detail : String)
  deriving DecidableEq, Repr

def DetachedFault.detail : DetachedFault → String
  | unattached => "virtual expressions compile only once attached"
  | otherDataset owner store => s!"field belongs to dataset {owner}, not {store}"
  | stated detail => detail

/-- Why a stored or exchanged form cannot be written or read. -/
inductive CodecFault where
  | compression
  | blobTruncated
  | blobMagic
  | blobVersion (version : Nat)
  | blobElementType (tag : Nat)
  | blobShape (shape : List UInt64)
  | blobTrailing
  | base64
  | date (text : String)
  | objectId (text : String)
  | uuid (text : String)
  | storedUuid (text : String)
  | storedIntKey (text : String)
  | noCoordinates
  | documentKey (kind : String)
  | dictKey (kind : String)
  | noJsonForm (shown : String)
  | storedVector (violation : Violation)
  | record
  | recordWithoutType (name : String)
  | recordAbstract (name : String) (type : FieldType)
  /-- A cause put into words by the caller. -/
  | stated (detail : String)
  deriving DecidableEq, Repr

def CodecFault.detail : CodecFault → String
  | compression => "Failed to decompress array: " ++ undisclosed
  | blobTruncated => "Array blob truncated"
  | blobMagic => "Array blob has bad magic"
  | blobVersion version => s!"Unsupported array format version {version}"
  | blobElementType tag => s!"Unknown array element type {tag}"
  | blobShape shape => s!"Array shape {showShape shape} overflows the element count"
  | blobTrailing => "Trailing bytes after array data"
  | base64 => "Invalid base64 payload: " ++ undisclosed
  | date text => s!"Invalid date '{text}': " ++ undisclosed
  | objectId text => s!"Invalid object id '{text}'"
  | uuid text => s!"Invalid uuid '{text}': " ++ undisclosed
  | storedUuid text => s!"Stored UUID '{text}' is invalid: " ++ undisclosed
  | storedIntKey text => s!"Stored int dict key '{text}' is not an integer"
  | noCoordinates => "Stored geometry has no coordinates"
  | documentKey kind => s!"Stored document keys must be strings, found {kind}"
  | dictKey kind => s!"Dict keys must be strings or integers, found {kind}"
  | noJsonForm shown => s!"{shown} has no JSON representation"
  | storedVector violation => violation.rule
  | record => "Failed to decode field record: " ++ undisclosed
  | recordWithoutType name => s!"Record for '{name}' has no embedded document type"
  | recordAbstract name type => s!"Record for '{name}' has abstract type {type.typeName}"
  | stated detail => detail

/-- A failed schema operation. -/
inductive Error where
  /-- Malformed constraints or query options. -/
  | constraint (fault : ConstraintFault)
  /-- A field whose type disagrees with a constraint or with its counterpart in a merge. -/
  | typeMismatch (path expected actual : String)
  /-- A value, name or shape that breaks a rule, at the innermost path where it does. -/
  | invalid (path : Option String) (violation : Violation)
  /-- A lookup that found nothing. -/
  | missingField (path : String)
  /-- A forbidden change of state. -/
  | illegalTransition (path : Option String) (fault : TransitionFault)
  /-- An operation on a field that is not attached where it has to be. -/
  | detached (name : String) (fault : DetachedFault)
  /-- A form that cannot be coded. -/
  | codec (fault : CodecFault)
  /-- A failure of the store behind the schema. -/
  | backend (detail : String)
  deriving DecidableEq, Repr

namespace Error

def code : Error → String
  | constraint _ => "SCHEMA_CONSTRAINT_SHAPE"
  | typeMismatch _ _ _ => "SCHEMA_TYPE_MISMATCH"
  | invalid _ _ => "SCHEMA_VALIDATION_FAILED"
  | missingField _ => "SCHEMA_MISSING_FIELD"
  | illegalTransition _ _ => "SCHEMA_ILLEGAL_TRANSITION"
  | detached _ _ => "SCHEMA_FIELD_DETACHED"
  | codec _ => "SCHEMA_CODEC_FAILED"
  | backend _ => "SCHEMA_BACKEND_FAILED"

def message : Error → String
  | constraint fault => s!"Invalid {fault.constraint} constraint: {fault.detail}"
  | typeMismatch path expected actual => s!"Field '{path}' has type {actual}, not {expected}"
  | invalid (some path) violation => s!"Invalid value for field '{path}': {violation.rule}"
  | invalid none violation => s!"Invalid value: {violation.rule}"
  | missingField path => s!"Field '{path}' does not exist"
  | illegalTransition (some path) fault =>
      s!"Illegal transition for field '{path}': {fault.detail}"
  | illegalTransition none fault => s!"Illegal transition: {fault.detail}"
  | detached name fault => s!"Field '{name}' is not attached to a dataset: {fault.detail}"
  | codec fault => s!"Codec error: {fault.detail}"
  | backend detail => s!"Backend error: {detail}"

/-- Gives a broken rule the path where it was met, unless it has one: the innermost path wins. -/
def atPath (error : Error) (path : String) : Error :=
  match error with
  | invalid none violation => invalid (some path) violation
  | other => other

/-- Whether the caller, and not the data, is at fault. -/
def isCallerBug : Error → Bool
  | constraint _ | illegalTransition _ _ | detached _ _ => true
  | _ => false

theorem atPath_atPath (error : Error) (inner outer : String) :
    (error.atPath inner).atPath outer = error.atPath inner := by
  cases error with
  | invalid path violation => cases path <;> rfl
  | _ => rfl

end Error

/-- The named field type, or the constraint fault for a name that no type has. -/
def FieldType.parse (text : String) : Except Error FieldType :=
  match FieldType.ofName? text with
  | some type => .ok type
  | none => .error (.constraint (.unknownFieldType text))

end SchemaTree
