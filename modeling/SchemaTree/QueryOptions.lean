import SchemaTree.Json.Member
import SchemaTree.Json.Outline
import SchemaTree.Query
import SchemaTree.Traverse

/-!
Query options, the textual form of queries.  A JSON object names the options, or an array has them
in order and may end early.  Field types and document types are given by name, one or several.
-/

namespace SchemaTree

/-- One name, or a list of names. -/
inductive Names where
  | one (name : String)
  | many (names : List String)
  deriving DecidableEq, Repr

namespace Names

def toList : Names → List String
  | one name => [name]
  | many names => names

def toJson : Names → Json
  | one name => .string name
  | many names => .array (names.map Json.string)

end Names

/-- Options of a query, before names are resolved. -/
structure QueryOptions where
  types : Option Names
  documentTypes : Option Names
  isVirtual : Option Bool
  includePrivate : Bool
  flat : Bool
  mode : Option String
  deriving DecidableEq, Repr

namespace Json.Outline

def text? : Outline → Option String
  | string value => value
  | _ => none

def truth? : Outline → Option Bool
  | bool value => some value
  | _ => none

def names? : Outline → Option Names
  | string value => value.map Names.one
  | array items => (items.mapM text?).map Names.many
  | _ => none

/-- Reads null as nothing, and all else by a reader. -/
def nullOr {α : Type} (read : Outline → Option α) : Outline → Option (Option α)
  | null => some none
  | outline => (read outline).map some

end Json.Outline

namespace QueryOptions

open Json (Outline)

def keys : List String :=
  ["ftype", "embedded_doc_type", "virtual", "include_private", "flat", "mode"]

/-- An option that may be absent, which stands for a default. -/
def optional {α : Type} (members : List (String × Outline)) (key : String) (default : α)
    (read : Outline → Option α) : Option α :=
  match Mapping.lookup members key with
  | some outline => read outline
  | none => some default

def ofMembers? (members : List (String × Outline)) : Option QueryOptions := do
  let types ← optional members "ftype" none (Outline.nullOr Outline.names?)
  let documentTypes ← optional members "embedded_doc_type" none (Outline.nullOr Outline.names?)
  let isVirtual ← optional members "virtual" none (Outline.nullOr Outline.truth?)
  let includePrivate ← optional members "include_private" false Outline.truth?
  let flat ← optional members "flat" false Outline.truth?
  let mode ← optional members "mode" none (Outline.nullOr Outline.text?)
  return { types, documentTypes, isVirtual, includePrivate, flat, mode }

def keyed? (members : List (Option String × Outline)) : Option (List (String × Outline)) :=
  members.mapM fun member => member.1.map fun key => (key, member.2)

/-- The options of an outline.  No option may be repeated, and members that are no options are
ignored. -/
def ofOutline? : Outline → Option QueryOptions
  | .object members =>
      (keyed? members).bind fun members =>
        let options := members.filter fun member => keys.contains member.1
        if (options.map Prod.fst).Nodup then ofMembers? options else none
  | .array items => if items.length ≤ keys.length then ofMembers? (keys.zip items) else none
  | _ => none

def read (text : String) : Except Error QueryOptions :=
  match (Outline.ofText? text).bind ofOutline? with
  | some options => .ok options
  | none => .error (.constraint .options)

def toJson (options : QueryOptions) : Json :=
  Json.ofMembers <|
    Json.optionalMember "ftype" Names.toJson options.types
      ++ Json.optionalMember "embedded_doc_type" Names.toJson options.documentTypes
      ++ Json.optionalMember "virtual" Json.bool options.isVirtual
      ++ [("include_private", .bool options.includePrivate), ("flat", .bool options.flat)]
      ++ Json.optionalMember "mode" Json.string options.mode

/-- Resolves each of some names, if there are any. -/
def resolveNames {α : Type} (resolve : String → Except Error α) :
    Option Names → Except Error (Option (List α))
  | none => .ok none
  | some names => (mapEach resolve names.toList).map some

/-- The query of the options, with document types from a registry.  The mode counts for flat
queries only. -/
def resolve (options : QueryOptions) (registry : Registry) : Except Error Query := do
  let types ← resolveNames FieldType.parse options.types
  let documentTypes ← resolveNames registry.resolve options.documentTypes
  let mode ← match options.mode with
    | some mode => if options.flat then (FlattenMode.parse mode).map some else .ok none
    | none => .ok none
  return {
    constraints := { types, documentTypes, isVirtual := options.isVirtual }
    includePrivate := options.includePrivate
    flat := options.flat
    mode }

end QueryOptions

end SchemaTree
