import SchemaTree.Embedded
import SchemaTree.Field.Equality

/-!
Schemas: the fields of a dataset by name, in order.  Dotted paths descend through embedded
documents and through containers of them.  Lookup sees the fields of installed views; updates
reach effective fields only.
-/

namespace SchemaTree

/-- A mapping from names, or from dotted paths once flattened, to fields. -/
abbrev Schema := List (String × Field)

namespace Field

/-- The field at the end of a row of names below a field, under the installed views. -/
def descend? : List String → Field → Option Field
  | [], field =>
      some field
  | name :: rest, field =>
      (field.nested?.bind fun nested => nested.get? name).bind (descend? rest)

/-- The effective field at the end of a row of names below a field. -/
def effective? : List String → Field → Option Field
  | [], field =>
      some field
  | name :: rest, field =>
      (field.reached?.bind fun nested => Mapping.lookup nested.fields name).bind (effective? rest)

/-- Changes the effective field at the end of a row of names below a field. -/
def updateBelow (change : Field → Field) : List String → Field → Field
  | [], field =>
      change field
  | name :: rest, field =>
      field.modifyNested fun nested =>
        { nested with fields := Mapping.adjust nested.fields name (updateBelow change rest) }

end Field

namespace Schema

/-- The field at a dotted path, under the installed views. -/
def get? (schema : Schema) (path : String) : Option Field :=
  match Path.segments path with
  | [] => none
  | name :: rest => (Mapping.lookup schema name).bind (Field.descend? rest)

def effective? (schema : Schema) (path : String) : Option Field :=
  match Path.segments path with
  | [] => none
  | name :: rest => (Mapping.lookup schema name).bind (Field.effective? rest)

/-- Changes the effective field at a dotted path. -/
def update (schema : Schema) (path : String) (change : Field → Field) : Schema :=
  match Path.segments path with
  | [] => schema
  | name :: rest => Mapping.adjust schema name (Field.updateBelow change rest)

/-- Installs a field at the end, under its own name, in place of any field of that name, whose
flags it takes over.  It is attached at its name, or stays detached without a dataset. -/
def declare (schema : Schema) (dataset : Option Uuid) (field : Field) :
    Except Error (Schema × Event) :=
  match checkFieldName field.name with
  | .error error => .error error
  | .ok () =>
      let name := field.name
      let installed := Embedded.inheritFlags field (Mapping.lookup schema name)
      .ok (Mapping.erase schema name ++ [(name, installed.place dataset name)],
        ⟨.fieldDeclared, [("path", name)]⟩)

/-- Removes a name and returns its field detached. -/
def remove (schema : Schema) (name : String) : Option (Field × Schema) :=
  (Mapping.lookup schema name).map fun field => (field.detach, Mapping.erase schema name)

/-- Attaches every field to a dataset, each at its key. -/
def attach (schema : Schema) (dataset : Uuid) : Schema :=
  Mapping.mapValues (fun name field => field.bind dataset name) schema

def detach (schema : Schema) : Schema :=
  Mapping.mapValues (fun _ field => field.detach) schema

def retain (schema : Schema) (names : List String) : Schema :=
  schema.filter fun entry => names.contains entry.1

def equal (left right : Schema) : Bool :=
  equalFields left right

end Schema

end SchemaTree
