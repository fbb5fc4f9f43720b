import SchemaTree.Embedded
import SchemaTree.Field.Equality

/-!
Records, the form in which the fields of a dataset are persisted.  A record keeps the type of a
field with its parameters, the attributes, and the source of an expression; bindings, compiled
stages and views are not kept.  Document types are kept by name, and are found again in a registry.
-/

namespace SchemaTree

/-- The persisted form of a field. -/
structure Record where
  name : String
  /-- The name of the field's type. -/
  type : String
  /-- The record of the element field of a list or a dict. -/
  element : Option Record
  /-- The name of the document type of an embedded document. -/
  documentType : Option String
  /-- The records of the declared fields of an embedded document. -/
  fields : Option (List Record)
  /-- The names of the displaced defaults, unless there are none. -/
  displaced : Option (List String)
  least : Option Binary64
  greatest : Option Binary64
  description : Option String
  info : Option (List (String × Json))
  required : Bool
  nullable : Bool
  /-- The source of the expression of a virtual field. -/
  expression : Option Json

/-- The record of a type that has no parameters, with the attributes of a field. -/
def Record.ofAttributes (attributes : Attributes) (type : FieldType) : Record where
  name := attributes.name
  type := type.typeName
  element := none
  documentType := none
  fields := none
  displaced := none
  least := none
  greatest := none
  description := attributes.description
  info := attributes.info
  required := attributes.required
  nullable := attributes.nullable
  expression := attributes.expression.map Expression.source

def Record.displacedOf (names : List String) : Option (List String) :=
  if names = [] then none else some names

mutual

def Field.toRecord : Field → Record
  | ⟨attributes, .list flavor (some element)⟩ =>
      { Record.ofAttributes attributes flavor.fieldType with element := some element.toRecord }
  | ⟨attributes, .dict flavor (some element)⟩ =>
      { Record.ofAttributes attributes flavor.fieldType with element := some element.toRecord }
  | ⟨attributes, .float least greatest⟩ =>
      { Record.ofAttributes attributes .float with least, greatest }
  | ⟨attributes, .embedded nested⟩ =>
      nested.toRecord (Record.ofAttributes attributes .embeddedDocument)
  | ⟨attributes, kind⟩ => Record.ofAttributes attributes kind.fieldType
  termination_by structural field => field

/-- The record of an embedded document, given its attributes. -/
def Embedded.toRecord (plain : Record) : Embedded → Record
  | ⟨documentType, declared, displaced, fields, _⟩ =>
      { plain with
        documentType := some documentType.name
        fields := some (declared.filterMap (Mapping.lookup (recordEntries fields)))
        displaced := Record.displacedOf displaced }
  termination_by structural nested => nested

def recordEntries : List (String × Field) → List (String × Record)
  | [] => []
  | (name, field) :: rest => (name, field.toRecord) :: recordEntries rest
  termination_by structural fields => fields

end

/-- The kind of a type without documents, given its parameters.  The two abstract types have
none. -/
def FieldType.kind? (element : Option Field) (least greatest : Option Binary64) :
    FieldType → Option Kind
  | .objectId => some .objectId
  | .uuid => some .uuid
  | .boolean => some .boolean
  | .int => some .int
  | .frameNumber => some .frameNumber
  | .float => some (.float least greatest)
  | .string => some .string
  | .date => some .date
  | .dateTime => some .dateTime
  | .list => some (.list .plain element)
  | .heatmapRange => some (.list .heatmapRange element)
  | .keypoints => some (.list .keypoints element)
  | .polylinePoints => some (.list .polylinePoints element)
  | .frameSupport => some (.list .frameSupport element)
  | .classes => some (.list .classes element)
  | .embeddedDocumentList => some (.list .embeddedDocuments element)
  | .dict => some (.dict .plain element)
  | .intDict => some (.dict .intKeys element)
  | .targets => some (.dict .targets element)
  | .geoPoint => some (.geo .point)
  | .geoLineString => some (.geo .lineString)
  | .geoPolygon => some (.geo .polygon)
  | .geoMultiPoint => some (.geo .multiPoint)
  | .geoMultiLineString => some (.geo .multiLineString)
  | .geoMultiPolygon => some (.geo .multiPolygon)
  | .vector => some .vector
  | .array => some .array
  | .embeddedDocument | .field | .geo => none

namespace Record

/-- The registered document type that a record names. -/
def resolveType (registry : Registry) (name : String) (documentType : Option String) :
    Except Error DocumentType :=
  match documentType with
  | some typeName => registry.resolve typeName
  | none => .error (.codec (.recordWithoutType name))

mutual

/-- The field of a record, detached, with document types from a registry. -/
def toField (registry : Registry) : Record → Except Error Field
  | ⟨name, type, element, documentType, fields, displaced, least, greatest, description, info,
      required, nullable, expression⟩ =>
      (FieldType.parse type).bind fun type =>
        (elementField registry element).bind fun element =>
          let kind : Except Error Kind :=
            match type.kind? (element.map (Field.renamed name)) least greatest with
            | some kind => .ok kind
            | none =>
                if type = .embeddedDocument then
                  (resolveType registry name documentType).bind fun documentType =>
                    (declaredFields registry fields).map fun fields =>
                      .embedded (.build documentType fields (displaced.getD []))
                else .error (.codec (.recordAbstract name type))
          kind.map fun kind =>
            ⟨⟨name, description, info, required, nullable, expression.map Expression.ofSource,
              none⟩, kind⟩
  termination_by structural record => record

def elementField (registry : Registry) : Option Record → Except Error (Option Field)
  | none => .ok none
  | some record => (record.toField registry).map some
  termination_by structural element => element

def declaredFields (registry : Registry) : Option (List Record) → Except Error (List Field)
  | none => .ok []
  | some records => fieldsOf registry records
  termination_by structural fields => fields

def fieldsOf (registry : Registry) : List Record → Except Error (List Field)
  | [] => .ok []
  | record :: rest =>
      (record.toField registry).bind fun first =>
        (fieldsOf registry rest).map fun others => first :: others
  termination_by structural records => records

end

mutual

/-- Equality of records, with doubles compared as numbers. -/
def equal : Record → Record → Bool
  | ⟨name, type, element, documentType, fields, displaced, least, greatest, description, info,
      required, nullable, expression⟩, other =>
      name = other.name && type = other.type && equalElement element other.element
        && documentType = other.documentType && equalNested fields other.fields
        && displaced = other.displaced && equalOptions Binary64.equal least other.least
        && equalOptions Binary64.equal greatest other.greatest
        && description = other.description && equalOptions Json.equalMembers info other.info
        && required = other.required && nullable = other.nullable
        && equalOptions Json.equal expression other.expression
  termination_by structural record => record

def equalElement : Option Record → Option Record → Bool
  | none, none => true
  | some left, some right => left.equal right
  | _, _ => false
  termination_by structural element => element

def equalNested : Option (List Record) → Option (List Record) → Bool
  | none, none => true
  | some left, some right => equalRecords left right
  | _, _ => false
  termination_by structural fields => fields

def equalRecords : List Record → List Record → Bool
  | [], [] => true
  | left :: lefts, right :: rights => left.equal right && equalRecords lefts rights
  | _, _ => false
  termination_by structural records => records

end

end Record

end SchemaTree
