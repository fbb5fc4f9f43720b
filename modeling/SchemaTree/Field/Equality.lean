import SchemaTree.Field

/-!
Equality of fields.  All parts count, compiled stages and bindings included.  Doubles are compared
as numbers, mappings without regard to order, views as sets of names, and document types by name.
-/

namespace SchemaTree

def equalOptions {α : Type} (equal : α → α → Bool) : Option α → Option α → Bool
  | none, none => true
  | some left, some right => equal left right
  | _, _ => false

/-- Equality of expressions, with and without their stages. -/
def Expression.equal (left right : Expression) : Bool :=
  left.source.equal right.source && equalOptions Json.equal left.stage right.stage

def Attributes.equal (left right : Attributes) : Bool :=
  left.name = right.name && left.description = right.description
    && equalOptions Json.equalMembers left.info right.info && left.required = right.required
    && left.nullable = right.nullable
    && equalOptions Expression.equal left.expression right.expression
    && left.binding = right.binding

/-- Whether two lists have the same names in them. -/
def sameNames (left right : List String) : Bool :=
  left.all right.contains && right.all left.contains

mutual

def Field.equal : Field → Field → Bool
  | ⟨attributes, kind⟩, other => attributes.equal other.attributes && kind.equal other.kind
  termination_by structural field => field

def Kind.equal : Kind → Kind → Bool
  | .objectId, .objectId => true
  | .uuid, .uuid => true
  | .boolean, .boolean => true
  | .int, .int => true
  | .frameNumber, .frameNumber => true
  | .float least greatest, .float otherLeast otherGreatest =>
      equalOptions Binary64.equal least otherLeast
        && equalOptions Binary64.equal greatest otherGreatest
  | .string, .string => true
  | .date, .date => true
  | .dateTime, .dateTime => true
  | .list flavor none, .list otherFlavor none => flavor = otherFlavor
  | .list flavor (some element), .list otherFlavor (some other) =>
      flavor = otherFlavor && element.equal other
  | .dict flavor none, .dict otherFlavor none => flavor = otherFlavor
  | .dict flavor (some element), .dict otherFlavor (some other) =>
      flavor = otherFlavor && element.equal other
  | .geo geometry, .geo other => geometry = other
  | .vector, .vector => true
  | .array, .array => true
  | .embedded nested, .embedded other => nested.equal other
  | _, _ => false
  termination_by structural kind => kind

def Embedded.equal : Embedded → Embedded → Bool
  | ⟨documentType, declared, displaced, fields, none⟩, other =>
      documentType.name = other.documentType.name && declared = other.declared
        && displaced = other.displaced && fields.length = other.fields.length
        && entriesWithin fields other.fields && other.view.isNone
  | ⟨documentType, declared, displaced, fields, some view⟩, other =>
      documentType.name = other.documentType.name && declared = other.declared
        && displaced = other.displaced && fields.length = other.fields.length
        && entriesWithin fields other.fields
        && match other.view with
          | some otherView => view.equal otherView
          | none => false
  termination_by structural nested => nested

def View.equal : View → View → Bool
  | ⟨selected, excluded, virtualFields⟩, other =>
      equalOptions sameNames selected other.selected
        && equalOptions sameNames excluded other.excluded
        && virtualFields.length = other.virtualFields.length
        && entriesWithin virtualFields other.virtualFields
  termination_by structural view => view

/-- Whether every entry has an equal one of its name in another mapping. -/
def entriesWithin : List (String × Field) → List (String × Field) → Bool
  | [], _ => true
  | (name, field) :: rest, others =>
      (match Mapping.lookup others name with
        | some other => field.equal other
        | none => false)
        && entriesWithin rest others
  termination_by structural fields => fields

end

def equalFields (left right : List (String × Field)) : Bool :=
  left.length = right.length && entriesWithin left right

end SchemaTree
