import Mathlib.Tactic.MkIffOfInductiveProp
import SchemaTree.Field.Constructors
import SchemaTree.Proofs.Json
import SchemaTree.Proofs.Mapping
import SchemaTree.Record.Exchange

/-!
The exchange of records as JSON data.  A record that is written is read again, and all of it comes
back but for what JSON has no sign for: bounds that are not finite, and expressions that are null.
-/

namespace SchemaTree

namespace Json

/-- The data, unless they are null. -/
def nonNull? : Json → Option Json
  | .null => none
  | json => some json

theorem bind_nonNull?_eq_self_iff {json : Option Json} :
    json.bind nonNull? = json ↔ json ≠ some .null := by
  cases json with
  | none => simp
  | some json => cases json <;> simp [nonNull?]

theorem present?_eq (json : Json) : nullOr present? json = some json.nonNull? := by
  cases json <;> rfl

theorem number?_ofFloat (bound : Binary64) :
    nullOr number? (.ofFloat bound) = some (Option.guard Binary64.isFinite bound) := by
  cases isFinite : bound.isFinite <;> simp [ofFloat, isFinite, nullOr, number?, Option.guard]

theorem texts?_map_string (names : List String) :
    texts? (.array (names.map string)) = some names := by
  induction names with
  | nil => rfl
  | cons name rest inductionHypothesis =>
      simp only [texts?, List.map_cons, List.mapM_cons, text?] at inductionHypothesis ⊢
      simp [inductionHypothesis]

/-- The members of the keys that have a value. -/
def present (slots : List (String × Option Json)) : List (String × Json) :=
  slots.flatMap fun slot => slot.2.toList.map (Prod.mk slot.1)

theorem optionalMember_eq {α : Type} (key : String) (write : α → Json) (value : Option α) :
    optionalMember key write value = (value.map write).toList.map (Prod.mk key) := by
  cases value <;> rfl

theorem keys_present_sublist (slots : List (String × Option Json)) :
    (Mapping.keys (present slots)).Sublist (Mapping.keys slots) := by
  induction slots with
  | nil => exact .slnil
  | cons slot rest inductionHypothesis =>
      obtain ⟨key, _ | value⟩ := slot
      · exact inductionHypothesis.cons key
      · exact inductionHypothesis.cons_cons key

theorem lookup_present {slots : List (String × Option Json)}
    (distinct : (Mapping.keys slots).Nodup) (name : String) :
    Mapping.lookup (present slots) name = (Mapping.lookup slots name).join := by
  induction slots with
  | nil => rfl
  | cons slot rest inductionHypothesis =>
      obtain ⟨key, value⟩ := slot
      obtain ⟨fresh, distinctRest⟩ := List.nodup_cons.mp distinct
      have absent : Mapping.lookup (present rest) key = none :=
        Mapping.lookup_eq_none_iff.mpr fun isKey => fresh ((keys_present_sublist rest).subset isKey)
      have split : present ((key, value) :: rest) =
          value.toList.map (Prod.mk key) ++ present rest := rfl
      rw [split, Mapping.lookup_append, inductionHypothesis distinctRest]
      by_cases isHere : key = name
      · subst isHere
        rw [← inductionHypothesis distinctRest, absent]
        cases value <;> simp [Mapping.lookup]
      · cases value <;> simp [Mapping.lookup, isHere]

/-- Wherever sorting puts the members of an object, they are found by their keys. -/
theorem exists_ofMembers_present {slots : List (String × Option Json)}
    (distinct : (Mapping.keys slots).Nodup) :
    ∃ members, ofMembers (present slots) = .object members ∧
      ∀ key, Mapping.lookup members key = (Mapping.lookup slots key).join := by
  have distinctPresent := distinct.sublist (keys_present_sublist slots)
  obtain ⟨members, arranged, isObject⟩ := ofMembers_perm distinctPresent
  have distinctMembers : (Mapping.keys members).Nodup :=
    (arranged.map Prod.fst).nodup_iff.mpr distinctPresent
  refine ⟨members, isObject, fun key => ?_⟩
  rw [← lookup_present distinct]
  apply Option.ext
  intro value
  rw [← Mapping.mem_iff_lookup distinctMembers, ← Mapping.mem_iff_lookup distinctPresent,
    arranged.mem_iff]

end Json

namespace Record

/-! ## Writing -/

/-- The members of a record by their keys, of which those without a value are not written. -/
def slots (record : Record) : List (String × Option Json) :=
  [("name", some (.string record.name)), ("ftype", some (.string record.type)),
    ("subfield", record.element.map toJson),
    ("embedded_doc_type", record.documentType.map Json.string),
    ("fields", record.fields.map fun records => .array (recordsToJson records)),
    ("displaced_defaults", record.displaced.map fun names => .array (names.map Json.string)),
    ("min_value", record.least.map Json.ofFloat), ("max_value", record.greatest.map Json.ofFloat),
    ("description", some (Json.orNull Json.string record.description)),
    ("info", some (Json.orNull Json.object record.info)),
    ("required", some (.bool record.required)), ("nullable", some (.bool record.nullable)),
    ("expr", record.expression)]

theorem keys_slots (record : Record) : Mapping.keys record.slots = memberKeys :=
  rfl

theorem elementMember_eq (element : Option Record) :
    elementMember element = (element.map toJson).toList.map (Prod.mk "subfield") := by
  cases element <;> rfl

theorem fieldsMember_eq (fields : Option (List Record)) :
    fieldsMember fields =
      (fields.map fun records => Json.array (recordsToJson records)).toList.map
        (Prod.mk "fields") := by
  cases fields <;> rfl

theorem toJson_eq (record : Record) :
    record.toJson = Json.ofMembers (Json.present record.slots) := by
  obtain ⟨name, type, element, documentType, fields, displaced, least, greatest, description,
    info, required, nullable, expression⟩ := record
  simp [toJson, slots, Json.present, elementMember_eq, fieldsMember_eq, Json.optionalMember_eq]

theorem exists_members (record : Record) :
    ∃ members, record.toJson = .object members ∧
      ∀ key, Mapping.lookup members key = (Mapping.lookup record.slots key).join := by
  rw [toJson_eq]
  exact Json.exists_ofMembers_present (by rw [keys_slots]; decide)

theorem nonNull?_toJson (record : Record) : record.toJson.nonNull? = some record.toJson := by
  obtain ⟨members, isObject, _⟩ := record.exists_members
  rw [isObject]
  rfl

/-! ## Reading -/

mutual

/-- What comes back of a record.  JSON has no sign for bounds that are not finite, and null stands
for no expression. -/
def returned : Record → Record
  | ⟨name, type, element, documentType, fields, displaced, least, greatest, description, info,
      required, nullable, expression⟩ =>
      ⟨name, type, returnedElement element, documentType, returnedFields fields, displaced,
        least.filter Binary64.isFinite, greatest.filter Binary64.isFinite, description, info,
        required, nullable, expression.bind Json.nonNull?⟩
  termination_by structural record => record

/-- What comes back of an element record. -/
def returnedElement : Option Record → Option Record
  | none => none
  | some record => some record.returned
  termination_by structural element => element

/-- What comes back of the records of declared fields, if there are any. -/
def returnedFields : Option (List Record) → Option (List Record)
  | none => none
  | some records => some (returnedRecords records)
  termination_by structural fields => fields

/-- What comes back of records. -/
def returnedRecords : List Record → List Record
  | [] => []
  | record :: rest => record.returned :: returnedRecords rest
  termination_by structural records => records

end

theorem returnedRecords_eq_map (records : List Record) :
    returnedRecords records = records.map returned := by
  induction records with
  | nil => rfl
  | cons record rest inductionHypothesis =>
      rw [returnedRecords, inductionHypothesis, List.map_cons]

theorem elementAmong_eq (members : List (String × Json)) :
    elementAmong members =
      match (Mapping.lookup members "subfield").bind Json.nonNull? with
      | none => some none
      | some json => (read? json).map some := by
  induction members with
  | nil => rfl
  | cons member rest inductionHypothesis =>
      obtain ⟨key, json⟩ := member
      by_cases isHere : key = "subfield"
      · cases json <;> simp [elementAmong, Mapping.lookup, isHere, Json.nonNull?]
      · simp [elementAmong, Mapping.lookup, isHere, inductionHypothesis]

theorem fieldsAmong_eq (members : List (String × Json)) :
    fieldsAmong members =
      match Mapping.lookup members "fields" with
      | none | some .null => some none
      | some (.array items) => (readEach items).map some
      | _ => none := by
  induction members with
  | nil => rfl
  | cons member rest inductionHypothesis =>
      obtain ⟨key, json⟩ := member
      by_cases isHere : key = "fields"
      · cases json <;> simp [fieldsAmong, Mapping.lookup, isHere]
      · cases json <;> simp [fieldsAmong, Mapping.lookup, isHere, inductionHypothesis]

section Members

variable {α β : Type} {members : List (String × Json)} {key : String} {value : Option α}
variable {write : α → Json}

/-- A member that was left out for want of a value, or is null, is read as nothing. -/
theorem optional_of_written {read : Json → Option (Option β)} {keep : α → Option β}
    (isWritten : Mapping.lookup members key = value.map write)
    (reads : ∀ part, read (write part) = some (keep part)) :
    optional members key none read = some (value.bind keep) := by
  cases value with
  | none => simp [optional, isWritten]
  | some part => simp [optional, isWritten, reads]

theorem optional_of_exact {read : Json → Option (Option α)}
    (isWritten : Mapping.lookup members key = value.map write)
    (reads : ∀ part, read (write part) = some (some part)) :
    optional members key none read = some value := by
  rw [optional_of_written isWritten reads, Option.bind_fun_some]

theorem optional_of_orNull {read : Json → Option α}
    (isWritten : Mapping.lookup members key = some (Json.orNull write value))
    (reads : ∀ part, Json.nullOr read (write part) = some (some part)) :
    optional members key none (Json.nullOr read) = some value := by
  cases value with
  | none => simp [optional, isWritten, Json.orNull, Json.nullOr]
  | some part => simp [optional, isWritten, Json.orNull, reads]

theorem optional_ofFloat {bound : Option Binary64}
    (isWritten : Mapping.lookup members key = bound.map Json.ofFloat) :
    optional members key none (Json.nullOr Json.number?) =
      some (bound.filter Binary64.isFinite) := by
  rw [optional_of_written isWritten Json.number?_ofFloat, Option.bind_guard]

theorem optional_present {json : Option Json} (isWritten : Mapping.lookup members key = json) :
    optional members key none (Json.nullOr Json.present?) = some (json.bind Json.nonNull?) := by
  rw [← Option.map_id_apply (x := json)] at isWritten
  exact optional_of_written isWritten Json.present?_eq

/-- The members of a record that are no records themselves come back under their keys. -/
theorem ofMembers?_of_written {record : Record}
    (areWritten : ∀ key, Mapping.lookup members key = (Mapping.lookup record.slots key).join)
    (element : Option Record) (fields : Option (List Record)) :
    ofMembers? members element fields = some { record.returned with element, fields } := by
  obtain ⟨name, type, _, documentType, _, displaced, least, greatest, description, info, required,
    nullable, expression⟩ := record
  have isName : (Mapping.lookup members "name").bind Json.text? = some name := by
    rw [areWritten]
    rfl
  have isType : (Mapping.lookup members "ftype").bind Json.text? = some type := by
    rw [areWritten]
    rfl
  have isDocumentType : optional members "embedded_doc_type" none (Json.nullOr Json.text?) =
      some documentType :=
    optional_of_exact (areWritten _) fun _ => rfl
  have areDisplaced : optional members "displaced_defaults" none (Json.nullOr Json.texts?) =
      some displaced :=
    optional_of_exact (areWritten _) fun names =>
      congrArg (Option.map some) (Json.texts?_map_string names)
  have isDescription : optional members "description" none (Json.nullOr Json.text?) =
      some description :=
    optional_of_orNull (areWritten _) fun _ => rfl
  have isInfo : optional members "info" none (Json.nullOr Json.members?) = some info :=
    optional_of_orNull (areWritten _) fun _ => rfl
  have isRequired : optional members "required" false Json.truth? = some required := by
    rw [optional, areWritten]
    rfl
  have isNullable : optional members "nullable" true Json.truth? = some nullable := by
    rw [optional, areWritten]
    rfl
  have isLeast := optional_ofFloat (areWritten "min_value")
  have isGreatest := optional_ofFloat (areWritten "max_value")
  have isExpression : optional members "expr" none (Json.nullOr Json.present?) =
      some (expression.bind Json.nonNull?) :=
    optional_present (areWritten _)
  simp [ofMembers?, isName, isType, isDocumentType, areDisplaced, isLeast, isGreatest,
    isDescription, isInfo, isRequired, isNullable, isExpression, returned]

theorem elementAmong_of_written {element : Option Record}
    (isWritten : Mapping.lookup members "subfield" = element.map toJson)
    (reads : ∀ inner, element = some inner → read? inner.toJson = some inner.returned) :
    elementAmong members = some (returnedElement element) := by
  rw [elementAmong_eq, isWritten]
  cases element with
  | none => rfl
  | some inner => simp [nonNull?_toJson, reads inner rfl, returnedElement]

theorem fieldsAmong_of_written {fields : Option (List Record)}
    (areWritten : Mapping.lookup members "fields" =
      fields.map fun records => .array (recordsToJson records))
    (reads : ∀ records, fields = some records →
      readEach (recordsToJson records) = some (returnedRecords records)) :
    fieldsAmong members = some (returnedFields fields) := by
  rw [fieldsAmong_eq, areWritten]
  cases fields with
  | none => rfl
  | some records => simp [reads records rfl, returnedFields]

end Members

mutual

theorem read?_toJson : (record : Record) → read? record.toJson = some record.returned
  | ⟨name, type, element, documentType, fields, displaced, least, greatest, description, info,
      required, nullable, expression⟩ => by
      obtain ⟨members, isObject, areWritten⟩ := exists_members ⟨name, type, element,
        documentType, fields, displaced, least, greatest, description, info, required, nullable,
        expression⟩
      have isElement := elementAmong_of_written (areWritten _) (read?_element element)
      have areFields := fieldsAmong_of_written (areWritten _) (readEach_fields fields)
      rw [isObject, read?, isElement, areFields, Option.bind_some, Option.bind_some,
        ofMembers?_of_written areWritten, returned]
  termination_by structural record => record

theorem read?_element : (element : Option Record) → ∀ inner, element = some inner →
    read? inner.toJson = some inner.returned
  | none => nofun
  | some record => by
      rintro _ ⟨⟩
      exact read?_toJson record
  termination_by structural element => element

theorem readEach_fields : (fields : Option (List Record)) → ∀ records, fields = some records →
    readEach (recordsToJson records) = some (returnedRecords records)
  | none => nofun
  | some records => by
      rintro _ ⟨⟩
      exact readEach_recordsToJson records
  termination_by structural fields => fields

theorem readEach_recordsToJson : (records : List Record) →
    readEach (recordsToJson records) = some (returnedRecords records)
  | [] => rfl
  | record :: rest => by
      rw [recordsToJson, readEach, read?_toJson record, readEach_recordsToJson rest]
      rfl
  termination_by structural records => records

end

/-- All of a record comes back, but for what JSON has no sign for. -/
theorem ofJson_toJson (record : Record) : ofJson record.toJson = .ok record.returned := by
  rw [ofJson, read?_toJson]

/-! ## Records that come back as they were -/

/-- Whether JSON has a sign for all that a record and the records inside it have: no bound that is
not finite, and no expression that is null. -/
@[mk_iff]
inductive Writable : Record → Prop
  | intro {record : Record} (element : ∀ inner, record.element = some inner → Writable inner)
      (fields : ∀ records, record.fields = some records → ∀ inner ∈ records, Writable inner)
      (least : ∀ bound, record.least = some bound → bound.isFinite = true)
      (greatest : ∀ bound, record.greatest = some bound → bound.isFinite = true)
      (expression : record.expression ≠ some .null) : Writable record

theorem filter_isFinite_eq_self_iff {bound : Option Binary64} :
    bound.filter Binary64.isFinite = bound ↔
      ∀ value, bound = some value → value.isFinite = true := by
  cases bound <;> simp [Option.filter]

mutual

theorem returned_eq_self_iff : (record : Record) → (record.returned = record ↔ record.Writable)
  | ⟨name, type, element, documentType, fields, displaced, least, greatest, description, info,
      required, nullable, expression⟩ => by
      rw [writable_iff, ← returnedElement_eq_self_iff element,
        ← returnedFields_eq_self_iff fields, ← filter_isFinite_eq_self_iff,
        ← filter_isFinite_eq_self_iff, ← Json.bind_nonNull?_eq_self_iff, returned]
      simp
  termination_by structural record => record

theorem returnedElement_eq_self_iff : (element : Option Record) →
    (returnedElement element = element ↔ ∀ inner, element = some inner → inner.Writable)
  | none => by simp [returnedElement]
  | some record => by simp [returnedElement, returned_eq_self_iff record]
  termination_by structural element => element

theorem returnedFields_eq_self_iff : (fields : Option (List Record)) →
    (returnedFields fields = fields ↔
      ∀ records, fields = some records → ∀ inner ∈ records, inner.Writable)
  | none => by simp [returnedFields]
  | some records => by simp [returnedFields, returnedRecords_eq_self_iff records]
  termination_by structural fields => fields

theorem returnedRecords_eq_self_iff : (records : List Record) →
    (returnedRecords records = records ↔ ∀ inner ∈ records, inner.Writable)
  | [] => by simp [returnedRecords]
  | record :: rest => by
      simp [returnedRecords, returned_eq_self_iff record, returnedRecords_eq_self_iff rest]
  termination_by structural records => records

end

/-- A record comes back from JSON data as it was exactly if JSON has signs for all of it. -/
theorem ofJson_toJson_eq_ok_iff (record : Record) :
    ofJson record.toJson = .ok record ↔ record.Writable := by
  rw [ofJson_toJson, Except.ok.injEq, returned_eq_self_iff]

/-- Marks of documents in a list: each has a bounded score that is computed. -/
def marks : Record :=
  let score := (Field.boundedFloat "score" (some (.ofInt 0)) (some (.ofInt 1))).withExpression
    (.object [("$rand", .object [])])
  (Field.list "marks" (some (.embeddedWith "mark" ⟨"Mark", none, []⟩ [score] []))).toRecord

theorem ofJson_toJson_marks : marks.Writable ∧ ofJson marks.toJson = .ok marks := by
  have writable : marks.Writable := by
    refine .intro ?_ nofun nofun nofun nofun
    rintro _ ⟨⟩
    refine .intro nofun ?_ nofun nofun nofun
    rintro _ ⟨⟩
    intro inner member
    obtain rfl := List.mem_singleton.mp member
    refine .intro nofun nofun ?_ ?_ nofun
    all_goals
      rintro _ ⟨⟩
      exact Binary64.isFinite_ofInt (by decide)
  exact ⟨writable, (ofJson_toJson_eq_ok_iff marks).mpr writable⟩

end Record

end SchemaTree
