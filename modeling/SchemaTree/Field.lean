import SchemaTree.FieldType
import SchemaTree.Json
import SchemaTree.Mapping
import SchemaTree.Path
import SchemaTree.Uuid

/-!
The schema tree.  A field has attributes and a kind; list and dict kinds wrap an element field,
and an embedded kind nests a mapping of fields that starts from the defaults of a document type.
-/

namespace SchemaTree

/-- The expression of a virtual field, with its pipeline stage once it has been compiled. -/
structure Expression where
  source : Json
  stage : Option Json

namespace Expression

def ofSource (source : Json) : Expression :=
  ⟨source, none⟩

/-- The expression without its stage, which holds for one dataset and path only. -/
def uncompiled (expression : Expression) : Expression :=
  ofSource expression.source

end Expression

/-- Where an attached field lives. -/
structure Binding where
  dataset : Uuid
  path : String
  deriving DecidableEq, Repr

/-- The binding of a name inside the field of a binding. -/
def Binding.child (binding : Binding) (name : String) : Binding :=
  ⟨binding.dataset, Path.child binding.path name⟩

/-- What all fields have, whatever their kind. -/
structure Attributes where
  name : String
  description : Option String
  /-- Free data about the field: the members of a JSON object. -/
  info : Option (List (String × Json))
  required : Bool
  nullable : Bool
  /-- A field is virtual exactly if it has an expression. -/
  expression : Option Expression
  /-- A field is attached exactly if it has a binding. -/
  binding : Option Binding

/-- Where messages locate a field: its path, or its name while it is detached. -/
def Attributes.location (attributes : Attributes) : String :=
  match attributes.binding with
  | some binding => binding.path
  | none => attributes.name

mutual

/-- What a field holds. -/
inductive Kind where
  | objectId
  | uuid
  | boolean
  | int
  | frameNumber
  /-- Doubles between two bounds, each of which may be absent. -/
  | float (least greatest : Option Binary64)
  | string
  | date
  | dateTime
  /-- Lists; without an element field the elements are untyped. -/
  | list (flavor : ListFlavor) (element : Option Field)
  /-- Dicts; without an element field the values are untyped. -/
  | dict (flavor : DictFlavor) (element : Option Field)
  | geo (geometry : GeoKind)
  | vector
  | array
  | embedded (nested : Embedded)

/-- A named, typed node of the schema tree. -/
structure Field where
  attributes : Attributes
  kind : Kind

/-- The payload of an embedded document field. -/
structure Embedded where
  documentType : DocumentType
  /-- The names declared on this field, in the order of their declaration. -/
  declared : List String
  /-- The default names that do not hold their default any more. -/
  displaced : List String
  /-- The effective fields: defaults that were left alone, and declared fields. -/
  fields : List (String × Field)
  /-- The installed view. -/
  view : Option View

/-- A transient selection of the fields of an embedded document. -/
structure View where
  /-- The only names to show. -/
  selected : Option (List String)
  /-- The names to hide. -/
  excluded : Option (List String)
  /-- Fields that exist in this view only. -/
  virtualFields : List (String × Field)

/-- A class of embedded documents. -/
structure DocumentType where
  name : String
  parent : Option DocumentType
  /-- The default fields, those of the parent included. -/
  fields : List (String × Field)

end

def Kind.fieldType : Kind → FieldType
  | objectId => .objectId
  | uuid => .uuid
  | boolean => .boolean
  | int => .int
  | frameNumber => .frameNumber
  | float _ _ => .float
  | string => .string
  | date => .date
  | dateTime => .dateTime
  | list flavor _ => flavor.fieldType
  | dict flavor _ => flavor.fieldType
  | geo geometry => geometry.fieldType
  | vector => .vector
  | array => .array
  | embedded _ => .embeddedDocument

namespace Field

/-- A detached, regular field without further attributes. -/
def ofKind (name : String) (kind : Kind) : Field :=
  ⟨⟨name, none, none, false, true, none, none⟩, kind⟩

def name (field : Field) : String :=
  field.attributes.name

def type (field : Field) : FieldType :=
  field.kind.fieldType

def required (field : Field) : Bool :=
  field.attributes.required

def nullable (field : Field) : Bool :=
  field.attributes.nullable

def binding (field : Field) : Option Binding :=
  field.attributes.binding

def path (field : Field) : Option String :=
  field.binding.map Binding.path

def isAttached (field : Field) : Bool :=
  field.binding.isSome

def isVirtual (field : Field) : Bool :=
  field.attributes.expression.isSome

def location (field : Field) : String :=
  field.attributes.location

def element (field : Field) : Option Field :=
  match field.kind with
  | .list _ element | .dict _ element => element
  | _ => none

def isContainer (field : Field) : Bool :=
  match field.kind with
  | .list _ _ | .dict _ _ => true
  | _ => false

def embedded? (field : Field) : Option Embedded :=
  match field.kind with
  | .embedded nested => some nested
  | _ => none

/-- The payload through which dotted paths descend: that of the element of a container that has
one, and otherwise the field's own. -/
def nested? (field : Field) : Option Embedded :=
  match field.element with
  | some element => element.embedded?
  | none => field.embedded?

/-- The payload through which updates descend: that of the element of a container, and otherwise
the field's own. -/
def reached? (field : Field) : Option Embedded :=
  if field.isContainer then field.element.bind embedded? else field.embedded?

/-- Changes the payload through which dotted paths descend. -/
def modifyNested (change : Embedded → Embedded) : Field → Field
  | ⟨attributes, .embedded nested⟩ => ⟨attributes, .embedded (change nested)⟩
  | ⟨attributes, .list flavor (some ⟨inner, .embedded nested⟩)⟩ =>
      ⟨attributes, .list flavor (some ⟨inner, .embedded (change nested)⟩)⟩
  | ⟨attributes, .dict flavor (some ⟨inner, .embedded nested⟩)⟩ =>
      ⟨attributes, .dict flavor (some ⟨inner, .embedded (change nested)⟩)⟩
  | field => field

def modifyAttributes (field : Field) (change : Attributes → Attributes) : Field :=
  { field with attributes := change field.attributes }

def setDescription (field : Field) (description : Option String) : Field :=
  field.modifyAttributes fun attributes => { attributes with description }

def setInfo (field : Field) (info : Option (List (String × Json))) : Field :=
  field.modifyAttributes fun attributes => { attributes with info }

def setRequired (field : Field) (required : Bool) : Field :=
  field.modifyAttributes fun attributes => { attributes with required }

def setNullable (field : Field) (nullable : Bool) : Field :=
  field.modifyAttributes fun attributes => { attributes with nullable }

def bounds? (field : Field) : Option (Option Binary64 × Option Binary64) :=
  match field.kind with
  | .float least greatest => some (least, greatest)
  | _ => none

/-- Replaces both bounds of a field of doubles; other fields have none to replace. -/
def setBounds (field : Field) (least greatest : Option Binary64) : Field :=
  match field.kind with
  | .float _ _ => { field with kind := .float least greatest }
  | _ => field

/-- The field as a virtual one, with an expression that has not been compiled. -/
def withExpression (field : Field) (source : Json) : Field :=
  field.modifyAttributes fun attributes =>
    { attributes with expression := some (.ofSource source) }

/-- The same field under a new name, which its elements take too. -/
def renamed (newName : String) : Field → Field
  | ⟨attributes, .list flavor (some element)⟩ =>
      ⟨{ attributes with name := newName }, .list flavor (some (element.renamed newName))⟩
  | ⟨attributes, .dict flavor (some element)⟩ =>
      ⟨{ attributes with name := newName }, .dict flavor (some (element.renamed newName))⟩
  | ⟨attributes, kind⟩ =>
      ⟨{ attributes with name := newName }, kind⟩

/-- The type in words: plain containers show their element, embedded documents their document
type, and all else is shown by its type name alone. -/
def display : Field → String
  | ⟨_, .list .plain (some element)⟩ => s!"ListField({element.display})"
  | ⟨_, .dict .plain (some element)⟩ => s!"DictField({element.display})"
  | ⟨_, .list .embeddedDocuments (some ⟨_, .embedded nested⟩)⟩ =>
      s!"EmbeddedDocumentListField({nested.documentType.name})"
  | ⟨_, .embedded nested⟩ => s!"EmbeddedDocumentField({nested.documentType.name})"
  | ⟨_, kind⟩ => kind.fieldType.typeName

end Field

end SchemaTree
