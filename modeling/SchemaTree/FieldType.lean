/-!
Field types: the tag of every field kind, and the lattice that constraints and merges compare
tags in.  `field` is the root, `frameNumber` refines `int`, the specialised lists refine `list`,
`targets` refines `intDict`, which refines `dict`, and the six geometries refine `geo`.
-/

namespace SchemaTree

/-- The tag of a field kind. -/
inductive FieldType where
  | field
  | objectId
  | uuid
  | boolean
  | int
  | frameNumber
  | float
  | string
  | date
  | dateTime
  | list
  | heatmapRange
  | keypoints
  | polylinePoints
  | frameSupport
  | classes
  | embeddedDocumentList
  | dict
  | intDict
  | targets
  | geo
  | geoPoint
  | geoLineString
  | geoPolygon
  | geoMultiPoint
  | geoMultiLineString
  | geoMultiPolygon
  | vector
  | array
  | embeddedDocument
  deriving DecidableEq, Repr

namespace FieldType

def all : List FieldType :=
  [field, objectId, uuid, boolean, int, frameNumber, float, string, date, dateTime, list,
    heatmapRange, keypoints, polylinePoints, frameSupport, classes, embeddedDocumentList, dict,
    intDict, targets, geo, geoPoint, geoLineString, geoPolygon, geoMultiPoint,
    geoMultiLineString, geoMultiPolygon, vector, array, embeddedDocument]

theorem mem_all (type : FieldType) : type ∈ all := by
  cases type <;> decide

def tag : FieldType → String
  | field => "Field"
  | objectId => "ObjectId"
  | uuid => "Uuid"
  | boolean => "Boolean"
  | int => "Int"
  | frameNumber => "FrameNumber"
  | float => "Float"
  | string => "String"
  | date => "Date"
  | dateTime => "DateTime"
  | list => "List"
  | heatmapRange => "HeatmapRange"
  | keypoints => "Keypoints"
  | polylinePoints => "PolylinePoints"
  | frameSupport => "FrameSupport"
  | classes => "Classes"
  | embeddedDocumentList => "EmbeddedDocumentList"
  | dict => "Dict"
  | intDict => "IntDict"
  | targets => "Targets"
  | geo => "Geo"
  | geoPoint => "GeoPoint"
  | geoLineString => "GeoLineString"
  | geoPolygon => "GeoPolygon"
  | geoMultiPoint => "GeoMultiPoint"
  | geoMultiLineString => "GeoMultiLineString"
  | geoMultiPolygon => "GeoMultiPolygon"
  | vector => "Vector"
  | array => "Array"
  | embeddedDocument => "EmbeddedDocument"

/-- The name used in messages and records: the tag followed by `Field`. -/
def typeName : FieldType → String
  | field => "Field"
  | uuid => "UUIDField"
  | type => type.tag ++ "Field"

/-- The immediate parent in the lattice, which only the root lacks. -/
def parent : FieldType → Option FieldType
  | field => none
  | frameNumber => some int
  | heatmapRange | keypoints | polylinePoints | frameSupport | classes
  | embeddedDocumentList => some list
  | intDict => some dict
  | targets => some intDict
  | geoPoint | geoLineString | geoPolygon | geoMultiPoint | geoMultiLineString
  | geoMultiPolygon => some geo
  | _ => some field

/-- At most `depth` steps up the lattice, starting with the tag itself. -/
def lineage : Nat → FieldType → List FieldType
  | 0, _ =>
      []
  | depth + 1, type =>
      type :: match type.parent with
        | none => []
        | some parent => lineage depth parent

/-- The tag and all its ancestors.  The longest chain is `targets`, `intDict`, `dict`, `field`. -/
def ancestors (type : FieldType) : List FieldType :=
  lineage 4 type

theorem ancestors_eq (type : FieldType) :
    type.ancestors = type :: (type.parent.map ancestors).getD [] := by
  cases type <;> rfl

/-- Whether a tag is the other one or descends from it. -/
def isSubtypeOf (type other : FieldType) : Bool :=
  type.ancestors.contains other

theorem isSubtypeOf_field (type : FieldType) : type.isSubtypeOf field = true := by
  cases type <;> rfl

/-- Whether fields of this tag hold an embedded document. -/
def admitsEmbedded (type : FieldType) : Bool :=
  type.isSubtypeOf embeddedDocument

/-- Whether fields of this tag wrap an element field. -/
def isContainer (type : FieldType) : Bool :=
  type.isSubtypeOf list || type.isSubtypeOf dict

def ofTag? (text : String) : Option FieldType :=
  all.find? fun type => type.tag = text

/-- The tag named by its type name or by its bare name. -/
def ofName? (text : String) : Option FieldType :=
  all.find? fun type => type.typeName = text || type.tag = text

end FieldType

/-- The geometries that a geographic field can hold. -/
inductive GeoKind where
  | point
  | lineString
  | polygon
  | multiPoint
  | multiLineString
  | multiPolygon
  deriving DecidableEq, Repr

namespace GeoKind

def all : List GeoKind :=
  [point, lineString, polygon, multiPoint, multiLineString, multiPolygon]

def geojsonType : GeoKind → String
  | point => "Point"
  | lineString => "LineString"
  | polygon => "Polygon"
  | multiPoint => "MultiPoint"
  | multiLineString => "MultiLineString"
  | multiPolygon => "MultiPolygon"

def fieldType : GeoKind → FieldType
  | point => .geoPoint
  | lineString => .geoLineString
  | polygon => .geoPolygon
  | multiPoint => .geoMultiPoint
  | multiLineString => .geoMultiLineString
  | multiPolygon => .geoMultiPolygon

def ofTag? (text : String) : Option GeoKind :=
  all.find? fun kind => kind.geojsonType = text

end GeoKind

/-- Specialisations of a list field. -/
inductive ListFlavor where
  | plain
  | heatmapRange
  | keypoints
  | polylinePoints
  | frameSupport
  | classes
  | embeddedDocuments
  deriving DecidableEq, Repr

def ListFlavor.fieldType : ListFlavor → FieldType
  | plain => .list
  | heatmapRange => .heatmapRange
  | keypoints => .keypoints
  | polylinePoints => .polylinePoints
  | frameSupport => .frameSupport
  | classes => .classes
  | embeddedDocuments => .embeddedDocumentList

/-- Specialisations of a dict field. -/
inductive DictFlavor where
  | plain
  | intKeys
  | targets
  deriving DecidableEq, Repr

namespace DictFlavor

def fieldType : DictFlavor → FieldType
  | plain => .dict
  | intKeys => .intDict
  | targets => .targets

/-- Whether the keys of such dicts are integers; otherwise they are strings. -/
def hasIntKeys : DictFlavor → Bool
  | plain => false
  | intKeys => true
  | targets => true

end DictFlavor

end SchemaTree
