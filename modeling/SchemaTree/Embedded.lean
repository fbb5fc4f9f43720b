import SchemaTree.DocumentType
import SchemaTree.Log
import SchemaTree.View

/-!
Embedded documents.  The effective fields of an embedded document are the defaults of its type
that hold their place, followed by the fields declared on it; a declared field stands in the place
of a default of its name.  Declaring, renaming and removing displace the defaults they touch, so
that the declared fields and the displaced names determine the mapping.
-/

namespace SchemaTree.Embedded

def display (nested : Embedded) : String :=
  s!"EmbeddedDocumentField({nested.documentType.name})"

/-- Whether a name is a default of the document type. -/
def isDefault (nested : Embedded) (name : String) : Bool :=
  Mapping.contains nested.documentType.fields name

/-- The payload of a document type with declared fields, whose displaced defaults are left out. -/
def build (documentType : DocumentType) (fields : List Field) (displaced : List String) :
    Embedded :=
  let displaced := displaced.filter (Mapping.contains documentType.fields)
  let defaults := documentType.fields.filter fun entry => !displaced.contains entry.1
  { documentType
    declared := fields.map Field.name
    displaced
    fields := Mapping.extend defaults (fields.map fun field => (field.name, field.copy))
    view := none }

/-- The payload of a document type, with its defaults alone. -/
def ofType (documentType : DocumentType) : Embedded :=
  build documentType [] []

/-- The declared fields, in the order of their declaration. -/
def declaredFields (nested : Embedded) : List Field :=
  nested.declared.filterMap (Mapping.lookup nested.fields)

/-- The field of a name; the fields of an installed view come first. -/
def get? (nested : Embedded) (name : String) : Option Field :=
  match nested.view.bind fun view => Mapping.lookup view.virtualFields name with
  | some field => some field
  | none => Mapping.lookup nested.fields name

/-- Installs a view until it is released or replaced. -/
def useView (nested : Embedded) (view : View) : Embedded × Event :=
  ({ nested with view := some view },
    ⟨.viewApplied, [("document_type", nested.documentType.name)]⟩)

/-- Releases the installed view, if there is one. -/
def clearView (nested : Embedded) : Option (View × Embedded × Event) :=
  nested.view.map fun view =>
    (view, { nested with view := none },
      ⟨.viewCleared, [("document_type", nested.documentType.name)]⟩)

/-- Whether a name is shown under a view, private names only on demand. -/
def isVisible (view : Option View) (showPrivate : Bool) (name : String) : Bool :=
  (showPrivate || !isPrivate name)
    && match view with
      | some view => view.admits name
      | none => true

/-- The shown fields under a view.  Its own fields replace effective ones of their names where
these stand, and otherwise follow them. -/
def visibleIn (nested : Embedded) (view : Option View) (showPrivate : Bool) :
    List (String × Field) :=
  let overlay := match view with
    | some view => Mapping.extend nested.fields view.virtualFields
    | none => nested.fields
  overlay.filter fun entry => isVisible view showPrivate entry.1

def visible (nested : Embedded) (showPrivate : Bool) : List (String × Field) :=
  nested.visibleIn nested.view showPrivate

def namesIn (nested : Embedded) (view : Option View) (showPrivate : Bool) : List String :=
  Mapping.keys (nested.visibleIn view showPrivate)

def defaultNames (nested : Embedded) (showPrivate : Bool) : List String :=
  (Mapping.keys nested.documentType.fields).filter fun name => showPrivate || !isPrivate name

/-- Records that a name does not hold its default any more, if it is the name of one. -/
def displace (nested : Embedded) (name : String) : Embedded :=
  if nested.isDefault name && !nested.displaced.contains name then
    { nested with displaced := nested.displaced ++ [name] }
  else nested

/-- A field with the flags of the one it replaces, if there is one. -/
def inheritFlags (field : Field) : Option Field → Field
  | some previous => (field.setRequired previous.required).setNullable previous.nullable
  | none => field

/-- Installs a field at the end, under its own name, in place of any field of that name, whose
flags it takes over.  It is attached at a path, or stays detached without a dataset. -/
def declareField (nested : Embedded) (dataset : Option Uuid) (path : String) (field : Field) :
    Except Error (Embedded × Event) :=
  match checkFieldName field.name with
  | .error error => .error error
  | .ok () =>
      let name := field.name
      let installed := inheritFlags field (Mapping.lookup nested.fields name)
      let displaced := nested.displace name
      .ok ({ displaced with
          declared := nested.declared.filter (· ≠ name) ++ [name]
          fields := Mapping.erase nested.fields name ++ [(name, installed.place dataset path)] },
        ⟨.fieldDeclared, [("path", path)]⟩)

def replaceFirst (old new : String) : List String → List String
  | [] =>
      []
  | name :: rest =>
      if name = old then new :: rest else name :: replaceFirst old new rest

/-- The declared names after a renaming: the new name stands where the old one was declared, or
at the end if neither was. -/
def renameDeclared (declared : List String) (old new : String) : List String :=
  let moved :=
    if declared.contains old then replaceFirst old new declared
    else if declared.contains new then declared
    else declared ++ [new]
  if new = old then moved else moved.filter (· ≠ old)

/-- Installs a field at the end, under its own name, in place of the field of an old name. -/
def renameField (nested : Embedded) (dataset : Option Uuid) (old path : String) (field : Field) :
    Except Error (Embedded × Event) :=
  match checkFieldName field.name with
  | .error error => .error error
  | .ok () =>
      let new := field.name
      if new ≠ old ∧ Mapping.contains nested.fields new then
        .error (.illegalTransition (some path) (.nameTaken old new))
      else
        let displaced := (nested.displace old).displace new
        .ok ({ displaced with
            declared := renameDeclared nested.declared old new
            fields := Mapping.erase nested.fields old ++ [(new, field.place dataset path)] },
          ⟨.fieldRenamed, [("from", old), ("path", path), ("to", new)]⟩)

/-- Removes the field of a name, which is returned detached. -/
def removeField (nested : Embedded) (name : String) : Option (Field × Embedded × Event) :=
  (Mapping.lookup nested.fields name).map fun field =>
    let displaced := nested.displace name
    (field.detach,
      { displaced with
        declared := nested.declared.filter (· ≠ name)
        fields := Mapping.erase nested.fields name },
      ⟨.fieldRemoved, [("name", name), ("path", field.path.getD name)]⟩)

end SchemaTree.Embedded
