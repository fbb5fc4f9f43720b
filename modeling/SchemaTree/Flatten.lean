import SchemaTree.Query
import SchemaTree.Schema

/-!
Filtering and flattening.  A flattened schema lists every field under its dotted path, depth
first: a field comes before the fields of its embedded document, or of the embedded documents
that it contains.  A private name is left out with all that is below it, unless wanted.
-/

namespace SchemaTree

mutual

/-- The fields below a field, each with its path. -/
def Field.descendants (showPrivate : Bool) (path : String) : Field → List (String × Field)
  | ⟨_, .embedded nested⟩ => nested.descendants showPrivate path
  | ⟨_, .list _ (some ⟨_, .embedded nested⟩)⟩ => nested.descendants showPrivate path
  | ⟨_, .dict _ (some ⟨_, .embedded nested⟩)⟩ => nested.descendants showPrivate path
  | _ => []
  termination_by structural field => field

/-- The fields of an embedded document that are shown under its view, and all below them. -/
def Embedded.descendants (showPrivate : Bool) (path : String) : Embedded → List (String × Field)
  | ⟨_, _, _, fields, none⟩ =>
      ((branches showPrivate path fields).filter fun branch =>
        Embedded.isVisible none showPrivate branch.1).flatMap Prod.snd
  | ⟨_, _, _, fields, some ⟨selected, excluded, virtualFields⟩⟩ =>
      ((Mapping.extend (branches showPrivate path fields)
          (branches showPrivate path virtualFields)).filter fun branch =>
        Embedded.isVisible (some ⟨selected, excluded, virtualFields⟩) showPrivate
          branch.1).flatMap Prod.snd
  termination_by structural nested => nested

/-- For every name, its field and all below it, each with its path. -/
def branches (showPrivate : Bool) (path : String) :
    List (String × Field) → List (String × List (String × Field))
  | [] => []
  | (name, field) :: rest =>
      (name, (Path.child path name, field)
          :: field.descendants showPrivate (Path.child path name))
        :: branches showPrivate path rest
  termination_by structural fields => fields

end

namespace Schema

/-- All shown fields of a schema with their paths, depth first. -/
def paths (schema : Schema) (showPrivate : Bool) : List (String × Field) :=
  (schema.filter fun entry => showPrivate || !isPrivate entry.1).flatMap fun entry =>
    entry :: entry.2.descendants showPrivate entry.1

/-- The fields that match constraints, under their dotted paths. -/
def flatten (schema : Schema) (constraints : Constraints) (showPrivate : Bool) :
    Except Error Schema :=
  constraints.validate.map fun _ =>
    Mapping.ofList ((paths schema showPrivate).filter fun entry => constraints.isMetBy entry.2)

/-- The part of a schema that a query wants.  Where nothing is constrained, nothing is matched. -/
def filter (schema : Schema) (query : Query) : Except Error Schema :=
  query.constraints.validate.bind fun isConstrained =>
    let kept : Schema :=
      if isConstrained || !query.includePrivate then
        List.filter (fun entry : String × Field =>
          (query.includePrivate || !isPrivate entry.1)
            && (!isConstrained || query.constraintsBefore.isMetBy entry.2)) schema
      else schema
    if query.flat then kept.flatten query.constraintsAfter query.includePrivate else .ok kept

end Schema

namespace Embedded

/-- The part of an embedded document that a query wants, under a view. -/
def schemaIn (nested : Embedded) (view : Option View) (query : Query) : Except Error Schema :=
  Schema.filter (Mapping.ofList (nested.visibleIn view query.includePrivate)) query

end Embedded

end SchemaTree
