import SchemaTree.DocumentType

/-!
Type constraints.  A field matches if it has one of the wanted types or a subtype of one, if its
document type derives from one of the wanted ones, and if it is virtual as wanted; what is not
constrained always matches.  `isMetBy` answers, and `check` names what disagrees.
-/

namespace SchemaTree

/-- What is wanted of a field; an absent part wants nothing. -/
structure Constraints where
  types : Option (List FieldType)
  documentTypes : Option (List DocumentType)
  isVirtual : Option Bool

/-- Whether a document type derives from one of a list. -/
def DocumentType.derivesFromAny (type : DocumentType) (others : List DocumentType) : Bool :=
  others.any fun other => type.isSubclassOf other

def FieldType.isSubtypeOfAny (type : FieldType) (others : List FieldType) : Bool :=
  others.any fun other => type.isSubtypeOf other

namespace Constraints

def none : Constraints := ⟨.none, .none, .none⟩

def isEmpty (constraints : Constraints) : Bool :=
  constraints.types.isNone && constraints.documentTypes.isNone && constraints.isVirtual.isNone

/-- Whether the constraints are well formed, and if so whether there are any.  Lists must not be
empty, and document types can only be wanted of types that hold documents. -/
def validate (constraints : Constraints) : Except Error Bool :=
  let faultOfTypes : Option ConstraintFault := match constraints.types with
    | .none => .none
    | some [] => some .noFieldTypes
    | some types =>
        if constraints.documentTypes.isSome then
          (types.find? fun type => !type.admitsEmbedded).map .notEmbedded
        else .none
  match faultOfTypes with
  | some fault => .error (.constraint fault)
  | .none => match constraints.documentTypes with
    | some [] => .error (.constraint .noDocumentTypes)
    | _ => .ok !constraints.isEmpty

def isMetBy (constraints : Constraints) (field : Field) : Bool :=
  (match constraints.types with
    | some types => field.type.isSubtypeOfAny types
    | .none => true)
    && (match constraints.documentTypes with
      | some documentTypes => match field.embedded? with
        | some nested => nested.documentType.derivesFromAny documentTypes
        | .none => false
      | .none => true)
    && match constraints.isVirtual with
      | some isVirtual => isVirtual = field.isVirtual
      | .none => true

def joinNames (names : List String) : String :=
  " or ".intercalate names

def showBool (value : Bool) : String :=
  if value then "true" else "false"

/-- Fails unless a field at a path has one of the wanted types. -/
def checkType (constraints : Constraints) (path : String) (field : Field) : Except Error Unit :=
  match constraints.types with
  | .none => .ok ()
  | some types =>
      if field.type.isSubtypeOfAny types then .ok ()
      else .error (.typeMismatch path (joinNames (types.map FieldType.typeName)) field.display)

/-- Fails unless a field at a path has one of the wanted document types. -/
def checkDocumentType (constraints : Constraints) (path : String) (field : Field) :
    Except Error Unit :=
  match constraints.documentTypes with
  | .none => .ok ()
  | some documentTypes => match field.embedded? with
    | .none =>
        .error (.typeMismatch path FieldType.embeddedDocument.typeName field.display)
    | some nested =>
        if nested.documentType.derivesFromAny documentTypes then .ok ()
        else .error (.typeMismatch path
          ("document type " ++ joinNames (documentTypes.map DocumentType.name))
          ("document type " ++ nested.documentType.name))

/-- Fails unless a field at a path is virtual as wanted. -/
def checkVirtual (constraints : Constraints) (path : String) (field : Field) :
    Except Error Unit :=
  match constraints.isVirtual with
  | .none => .ok ()
  | some isVirtual =>
      if field.isVirtual = isVirtual then .ok ()
      else .error (.typeMismatch path ("virtual=" ++ showBool isVirtual)
        ("virtual=" ++ showBool field.isVirtual))

/-- Fails unless there is a field that satisfies all constraints; the first that it breaks is
reported.  Without constraints nothing is checked, not even that there is a field. -/
def check (constraints : Constraints) (path : Option String) (field : Option Field) :
    Except Error Unit :=
  if constraints.isEmpty then .ok ()
  else match field with
    | .none => .error (.missingField (path.getD "<unknown>"))
    | some field => do
        let path := path.getD field.location
        constraints.checkType path field
        constraints.checkDocumentType path field
        constraints.checkVirtual path field

end Constraints

end SchemaTree
