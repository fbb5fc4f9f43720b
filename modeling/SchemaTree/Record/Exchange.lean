import SchemaTree.Json.Member
import SchemaTree.Record

/-!
Records as JSON data.  An object is written, without the members that a record lacks except for
`description` and `info`, which are null then.  An object or an array is read: an array has the
members in the order of the record, and may end early.  Other members of an object are ignored.
-/

namespace SchemaTree

namespace Record

/-- The keys of a record's members, in the order of the record. -/
def memberKeys : List String :=
  ["name", "ftype", "subfield", "embedded_doc_type", "fields", "displaced_defaults", "min_value",
    "max_value", "description", "info", "required", "nullable", "expr"]

mutual

def toJson : Record → Json
  | ⟨name, type, element, documentType, fields, displaced, least, greatest, description, info,
      required, nullable, expression⟩ =>
      Json.ofMembers <|
        [("name", .string name), ("ftype", .string type)]
          ++ elementMember element
          ++ Json.optionalMember "embedded_doc_type" Json.string documentType
          ++ fieldsMember fields
          ++ Json.optionalMember "displaced_defaults"
            (fun names => .array (names.map Json.string)) displaced
          ++ Json.optionalMember "min_value" Json.ofFloat least
          ++ Json.optionalMember "max_value" Json.ofFloat greatest
          ++ [("description", Json.orNull Json.string description),
            ("info", Json.orNull Json.object info), ("required", .bool required),
            ("nullable", .bool nullable)]
          ++ Json.optionalMember "expr" id expression
  termination_by structural record => record

def elementMember : Option Record → List (String × Json)
  | none => []
  | some record => [("subfield", record.toJson)]
  termination_by structural element => element

/-- The member of the records of declared fields. -/
def fieldsMember : Option (List Record) → List (String × Json)
  | none => []
  | some records => [("fields", .array (recordsToJson records))]
  termination_by structural fields => fields

def recordsToJson : List Record → List Json
  | [] => []
  | record :: rest => record.toJson :: recordsToJson rest
  termination_by structural records => records

end

/-- A member that may be absent, which stands for a default. -/
def optional {α : Type} (members : List (String × Json)) (key : String) (default : α)
    (read : Json → Option α) : Option α :=
  match Mapping.lookup members key with
  | some json => read json
  | none => some default

/-- The record of members, given what was read of the members that are records themselves. -/
def ofMembers? (members : List (String × Json)) (element : Option Record)
    (fields : Option (List Record)) : Option Record := do
  let name ← (Mapping.lookup members "name").bind Json.text?
  let type ← (Mapping.lookup members "ftype").bind Json.text?
  let documentType ← optional members "embedded_doc_type" none (Json.nullOr Json.text?)
  let displaced ← optional members "displaced_defaults" none (Json.nullOr Json.texts?)
  let least ← optional members "min_value" none (Json.nullOr Json.number?)
  let greatest ← optional members "max_value" none (Json.nullOr Json.number?)
  let description ← optional members "description" none (Json.nullOr Json.text?)
  let info ← optional members "info" none (Json.nullOr Json.members?)
  let required ← optional members "required" false Json.truth?
  let nullable ← optional members "nullable" true Json.truth?
  let expression ← optional members "expr" none (Json.nullOr Json.present?)
  return ⟨name, type, element, documentType, fields, displaced, least, greatest, description,
    info, required, nullable, expression⟩

mutual

def read? : Json → Option Record
  | .object members =>
      (elementAmong members).bind fun element =>
        (fieldsAmong members).bind fun fields => ofMembers? members element fields
  | .array items =>
      if items.length ≤ memberKeys.length then
        (elementAt 2 items).bind fun element =>
          (fieldsAt 4 items).bind fun fields => ofMembers? (memberKeys.zip items) element fields
      else none
  | _ => none
  termination_by structural json => json

def elementAmong : List (String × Json) → Option (Option Record)
  | [] => some none
  | (key, json) :: rest =>
      if key = "subfield" then
        match json with
        | .null => some none
        | _ => (read? json).map some
      else elementAmong rest
  termination_by structural members => members

/-- The records of declared fields among members. -/
def fieldsAmong : List (String × Json) → Option (Option (List Record))
  | [] => some none
  | (key, .array items) :: rest =>
      if key = "fields" then (readEach items).map some else fieldsAmong rest
  | (key, json) :: rest =>
      if key = "fields" then
        match json with
        | .null => some none
        | _ => none
      else fieldsAmong rest
  termination_by structural members => members

def elementAt : Nat → List Json → Option (Option Record)
  | _, [] => some none
  | 0, json :: _ =>
      match json with
      | .null => some none
      | _ => (read? json).map some
  | index + 1, _ :: rest => elementAt index rest
  termination_by structural _ items => items

/-- The records of declared fields at an index of items. -/
def fieldsAt : Nat → List Json → Option (Option (List Record))
  | _, [] => some none
  | 0, .array items :: _ => (readEach items).map some
  | 0, json :: _ =>
      match json with
      | .null => some none
      | _ => none
  | index + 1, _ :: rest => fieldsAt index rest
  termination_by structural _ items => items

def readEach : List Json → Option (List Record)
  | [] => some []
  | json :: rest =>
      (read? json).bind fun first => (readEach rest).map fun others => first :: others
  termination_by structural items => items

end

/-- The record of JSON data, or the fault of data that is none. -/
def ofJson (json : Json) : Except Error Record :=
  match read? json with
  | some record => .ok record
  | none => .error (.codec .record)

end Record

end SchemaTree
