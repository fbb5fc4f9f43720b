import SchemaTree.Field.Binding
import SchemaTree.Path

/-!
Document types.  A type starts from the defaults of its parent and adds its own, which replace
inherited ones of the same name where they stand.  A registry finds types by their names.
-/

namespace SchemaTree

namespace DocumentType

/-- Whether a type, or a type it derives from, has the name of another. -/
def isSubclassOf : DocumentType → DocumentType → Bool
  | ⟨name, none, _⟩, other => name = other.name
  | ⟨name, some parent, _⟩, other => name = other.name || parent.isSubclassOf other

/-- Adds own defaults to inherited ones.  `seen` holds the own names met so far. -/
def addDefaults (typeName : String) :
    List String → List (String × Field) → List Field → Except Error (List (String × Field))
  | _, fields, [] =>
      .ok fields
  | seen, fields, field :: rest =>
      match checkFieldName field.name with
      | .error error => .error error
      | .ok () =>
          if seen.contains field.name then
            .error (.invalid none (.defaultRepeated typeName field.name))
          else
            addDefaults typeName (field.name :: seen)
              (Mapping.insert fields field.name field.copy) rest

/-- The defaults that a type takes over from its parent. -/
def inheritedFields : Option DocumentType → List (String × Field)
  | some parent => parent.fields
  | none => []

/-- The type of a name with a parent and own defaults. -/
def build (name : String) (parent : Option DocumentType) (own : List Field) :
    Except Error DocumentType :=
  if name = "" then .error (.invalid none .typeNameEmpty)
  else (addDefaults name [] (inheritedFields parent) own).map fun fields => ⟨name, parent, fields⟩

theorem isSubclassOf_self (type : DocumentType) : type.isSubclassOf type = true := by
  obtain ⟨name, parent, fields⟩ := type
  cases parent <;> simp [isSubclassOf]

end DocumentType

/-- Document types by name. -/
structure Registry where
  types : List (String × DocumentType)

namespace Registry

def empty : Registry := ⟨[]⟩

def get? (registry : Registry) (name : String) : Option DocumentType :=
  Mapping.lookup registry.types name

def register (registry : Registry) (type : DocumentType) : Except Error Registry :=
  match registry.get? type.name with
  | some _ => .error (.constraint (.typeTaken type.name))
  | none => .ok ⟨Mapping.insert registry.types type.name type⟩

/-- The registered type of a name, or the constraint fault for a name that has none. -/
def resolve (registry : Registry) (name : String) : Except Error DocumentType :=
  match registry.get? name with
  | some type => .ok type
  | none => .error (.constraint (.unknownType name))

def size (registry : Registry) : Nat :=
  registry.types.length

end Registry

end SchemaTree
