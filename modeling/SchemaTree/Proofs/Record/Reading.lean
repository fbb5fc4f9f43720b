import SchemaTree.Proofs.Provenance
import SchemaTree.Proofs.Traverse
import SchemaTree.Record

/-!
Reading the records of fields.  The record of any field is read with success, if a registry has the
document types that the record names; the field that it gives has the name of the original.
-/

namespace SchemaTree

@[simp]
theorem FieldType.parse_typeName (type : FieldType) : parse type.typeName = .ok type := by
  cases type <;> decide

namespace Record

variable {registry : Registry} {record : Record}

/-- The attributes that a record gives back. -/
def attributes (record : Record) : Attributes :=
  ⟨record.name, record.description, record.info, record.required, record.nullable,
    record.expression.map Expression.ofSource, none⟩

/-- What a record keeps of attributes is what detaching leaves of them. -/
@[simp]
theorem attributes_ofAttributes (attributes : Attributes) (type : FieldType) :
    (ofAttributes attributes type).attributes = attributes.rebind none := by
  rw [Record.attributes, Attributes.rebind, ofAttributes, Option.map_map]
  rfl

theorem toField_of_kind? (type : FieldType) {element : Option Field} {kind : Kind}
    (isType : record.type = type.typeName)
    (isElement : elementField registry record.element = .ok element)
    (isKind : type.kind? (element.map (Field.renamed record.name)) record.least record.greatest =
      some kind) : record.toField registry = .ok ⟨record.attributes, kind⟩ := by
  obtain ⟨name, typeName, elementRecord, documentType, fields, displaced, least, greatest,
    description, info, required, nullable, expression⟩ := record
  rw [toField, show typeName = type.typeName from isType, FieldType.parse_typeName]
  simp only [Except.bind, isElement, isKind, Except.map]
  rfl

theorem toField_of_embedded {type : DocumentType} {fields : List Field}
    (isType : record.type = FieldType.embeddedDocument.typeName) (plain : record.element = none)
    (isResolved : resolveType registry record.name record.documentType = .ok type)
    (areFields : declaredFields registry record.fields = .ok fields) :
    record.toField registry =
      .ok ⟨record.attributes, .embedded (.build type fields (record.displaced.getD []))⟩ := by
  obtain ⟨name, typeName, elementRecord, documentType, fieldRecords, displaced, least, greatest,
    description, info, required, nullable, expression⟩ := record
  cases plain
  rw [toField, show typeName = _ from isType, FieldType.parse_typeName]
  simp only [Except.bind, elementField, FieldType.kind?, isResolved, areFields, Except.map,
    if_true]
  rfl

/-- All that reading a record with success can do: an element record is read first, and then the
kind is taken from the type, or is a document whose declared fields are read too. -/
theorem toField_cases {field : Field} (isRead : record.toField registry = .ok field) :
    ∃ type element, FieldType.parse record.type = .ok type ∧
      elementField registry record.element = .ok element ∧
      ((∃ kind, type.kind? (element.map (Field.renamed record.name)) record.least
          record.greatest = some kind ∧ field = ⟨record.attributes, kind⟩) ∨
        type = .embeddedDocument ∧ ∃ documentType fields,
          resolveType registry record.name record.documentType = .ok documentType ∧
          declaredFields registry record.fields = .ok fields ∧
          field = ⟨record.attributes,
            .embedded (.build documentType fields (record.displaced.getD []))⟩) := by
  obtain ⟨name, typeName, elementRecord, documentType, fieldRecords, displaced, least, greatest,
    description, info, required, nullable, expression⟩ := record
  rw [toField, bind_eq_ok_iff] at isRead
  obtain ⟨type, isType, isRead⟩ := isRead
  obtain ⟨element, isElement, isRead⟩ := bind_eq_ok_iff.mp isRead
  obtain ⟨kind, isKind, rfl⟩ := map_eq_ok_iff.mp isRead
  refine ⟨type, element, isType, isElement, ?_⟩
  cases found : type.kind? (element.map (Field.renamed name)) least greatest with
  | some other =>
      rw [found] at isKind
      obtain rfl := Except.ok.inj isKind
      exact .inl ⟨other, rfl, rfl⟩
  | none =>
      simp only [found] at isKind
      split at isKind
      · next isDocument =>
          obtain ⟨documentType, isResolved, isKind⟩ := bind_eq_ok_iff.mp isKind
          obtain ⟨fields, areFields, rfl⟩ := map_eq_ok_iff.mp isKind
          exact .inr ⟨isDocument, documentType, fields, isResolved, areFields, rfl⟩
      · contradiction

theorem attributes_of_toField {field : Field} (isRead : record.toField registry = .ok field) :
    field.attributes = record.attributes := by
  obtain ⟨_, _, _, _, ⟨_, _, rfl⟩ | ⟨_, _, _, _, _, rfl⟩⟩ := toField_cases isRead <;> rfl

end Record

namespace Field

variable {registry : Registry} {attributes : Attributes}

/-- Whether the record of a field is read as another field. -/
def ReadAs (registry : Registry) (field rebuilt : Field) : Prop :=
  field.toRecord.toField registry = .ok rebuilt

@[simp]
theorem attributes_toRecord (field : Field) :
    field.toRecord.attributes = field.attributes.rebind none := by
  obtain ⟨attributes, kind⟩ := field
  cases kind with
  | list flavor element =>
      cases element <;> exact Record.attributes_ofAttributes attributes flavor.fieldType
  | dict flavor element =>
      cases element <;> exact Record.attributes_ofAttributes attributes flavor.fieldType
  | embedded nested =>
      obtain ⟨type, declared, displaced, fields, view⟩ := nested
      exact Record.attributes_ofAttributes attributes .embeddedDocument
  | float least greatest => exact Record.attributes_ofAttributes attributes .float
  | _ => exact Record.attributes_ofAttributes attributes _

@[simp]
theorem type_toRecord (field : Field) : field.toRecord.type = field.type.typeName := by
  obtain ⟨attributes, kind⟩ := field
  cases kind with
  | list flavor element => cases element <;> rfl
  | dict flavor element => cases element <;> rfl
  | embedded nested =>
      obtain ⟨type, declared, displaced, fields, view⟩ := nested
      rfl
  | _ => rfl

theorem ReadAs.attributes_eq {field rebuilt : Field} (isRead : ReadAs registry field rebuilt) :
    rebuilt.attributes = field.attributes.rebind none :=
  (Record.attributes_of_toField isRead).trans field.attributes_toRecord

theorem ReadAs.named {field rebuilt : Field} (isRead : ReadAs registry field rebuilt) :
    rebuilt.name = field.name := by
  rw [Field.name, isRead.attributes_eq]
  rfl

theorem readAs_scalar {kind : Kind} (isScalar : kind.isScalar = true) :
    ReadAs registry ⟨attributes, kind⟩ ⟨attributes.rebind none, kind⟩ := by
  have isElement : Record.elementField registry (toRecord ⟨attributes, kind⟩).element =
      .ok none := by
    cases kind with
    | list flavor inner => contradiction
    | dict flavor inner => contradiction
    | embedded nested => contradiction
    | _ => rfl
  rw [ReadAs, ← attributes_toRecord ⟨attributes, kind⟩]
  apply Record.toField_of_kind? kind.fieldType (type_toRecord _) isElement
  cases kind with
  | list flavor inner => contradiction
  | dict flavor inner => contradiction
  | embedded nested => contradiction
  | geo geometry => cases geometry <;> rfl
  | _ => rfl

section Elements

variable {element rebuilt changed : Option Field}

theorem readAs_list {flavor : ListFlavor}
    (isElement : Record.elementField registry (element.map toRecord) = .ok rebuilt)
    (isChanged : rebuilt.map (renamed attributes.name) = changed) :
    ReadAs registry ⟨attributes, .list flavor element⟩
      ⟨attributes.rebind none, .list flavor changed⟩ := by
  cases isChanged
  rw [ReadAs, ← attributes_toRecord ⟨attributes, .list flavor element⟩]
  cases element with
  | none =>
      apply Record.toField_of_kind? flavor.fieldType rfl isElement
      cases flavor <;> rfl
  | some inner =>
      apply Record.toField_of_kind? flavor.fieldType rfl isElement
      cases flavor <;> rfl

theorem readAs_dict {flavor : DictFlavor}
    (isElement : Record.elementField registry (element.map toRecord) = .ok rebuilt)
    (isChanged : rebuilt.map (renamed attributes.name) = changed) :
    ReadAs registry ⟨attributes, .dict flavor element⟩
      ⟨attributes.rebind none, .dict flavor changed⟩ := by
  cases isChanged
  rw [ReadAs, ← attributes_toRecord ⟨attributes, .dict flavor element⟩]
  cases element with
  | none =>
      apply Record.toField_of_kind? flavor.fieldType rfl isElement
      cases flavor <;> rfl
  | some inner =>
      apply Record.toField_of_kind? flavor.fieldType rfl isElement
      cases flavor <;> rfl

theorem elementField_toRecord {inner other : Field} (isRead : ReadAs registry inner other) :
    Record.elementField registry (some inner.toRecord) = .ok (some other) := by
  rw [Record.elementField, show inner.toRecord.toField registry = .ok other from isRead]
  rfl

end Elements

end Field

/-! ## Declared fields -/

theorem recordEntries_eq (fields : List (String × Field)) :
    recordEntries fields = Mapping.mapValues (fun _ => Field.toRecord) fields := by
  induction fields with
  | nil => rfl
  | cons entry rest inductionHypothesis =>
      rw [recordEntries, inductionHypothesis]
      rfl

@[simp]
theorem lookup_recordEntries (fields : List (String × Field)) (name : String) :
    Mapping.lookup (recordEntries fields) name =
      (Mapping.lookup fields name).map Field.toRecord := by
  rw [recordEntries_eq, Mapping.lookup_mapValues]

/-- A field that is related to the field of a name in a mapping. -/
def RelatedAt (related : Field → Field → Prop) (fields : List (String × Field)) (name : String)
    (rebuilt : Field) : Prop :=
  ∃ field, Mapping.lookup fields name = some field ∧ related field rebuilt

/-- Fields that are related, one by one, to the declared fields of a payload. -/
def Embedded.DeclaredAs (nested : Embedded) (related : Field → Field → Prop)
    (rebuilts : List Field) : Prop :=
  List.Forall₂ (RelatedAt related nested.fields) nested.declared rebuilts

section Declared

variable {registry : Registry} {related : Field → Field → Prop}
variable {fields : List (String × Field)} {declared : List String} {rebuilts : List Field}

theorem fieldsOf_recordEntries
    (areRead : List.Forall₂ (RelatedAt (Field.ReadAs registry) fields) declared rebuilts) :
    Record.fieldsOf registry (declared.filterMap (Mapping.lookup (recordEntries fields))) =
      .ok rebuilts := by
  induction areRead with
  | nil => rfl
  | @cons name rebuilt _ _ first _ inductionHypothesis =>
      obtain ⟨field, isFound, isRead⟩ := first
      have isRecorded : Mapping.lookup (recordEntries fields) name = some field.toRecord := by
        rw [lookup_recordEntries, isFound, Option.map_some]
      rw [List.filterMap_cons_some isRecorded, Record.fieldsOf,
        show field.toRecord.toField registry = .ok rebuilt from isRead, inductionHypothesis]
      rfl

theorem names_of_relatedAt
    (areRead : List.Forall₂ (RelatedAt (Field.ReadAs registry) fields) declared rebuilts)
    (named : ∀ name ∈ declared, ∀ field, Mapping.lookup fields name = some field →
      field.name = name) : rebuilts.map Field.name = declared := by
  induction areRead with
  | nil => rfl
  | @cons name rebuilt _ _ first _ inductionHypothesis =>
      obtain ⟨field, isFound, isRead⟩ := first
      rw [List.forall_mem_cons] at named
      rw [List.map_cons, inductionHypothesis named.2, isRead.named, named.1 field isFound]

end Declared

namespace Embedded

/-- The payload that the record of a payload is read as, given what its declared fields are read
as. -/
def rebuild (nested : Embedded) (rebuilts : List Field) : Embedded :=
  build nested.documentType rebuilts nested.displaced

variable {registry : Registry} {nested : Embedded} {rebuilts : List Field}

theorem displaced_rebuild (consistent : nested.Consistent) :
    (nested.rebuild rebuilts).displaced = nested.displaced := by
  refine List.filter_eq_self.mpr ?_
  intro name isDisplaced
  exact Mapping.contains_iff.mpr (consistent.displaced name isDisplaced)

theorem declared_rebuild (consistent : nested.Consistent)
    (areRead : nested.DeclaredAs (Field.ReadAs registry) rebuilts) :
    (nested.rebuild rebuilts).declared = nested.declared :=
  names_of_relatedAt areRead consistent.declared

theorem consistent_rebuild (consistent : nested.Consistent) :
    (nested.rebuild rebuilts).Consistent :=
  consistent_build rebuilts nested.displaced consistent.type

/-- A rebuilt payload has the names of the original, in some order. -/
theorem keys_rebuild_perm (consistent : nested.Consistent)
    (areRead : nested.DeclaredAs (Field.ReadAs registry) rebuilts) :
    (Mapping.keys (nested.rebuild rebuilts).fields).Perm (Mapping.keys nested.fields) := by
  have again : (nested.rebuild rebuilts).Consistent := consistent_rebuild consistent
  refine (List.perm_ext_iff_of_nodup again.distinct consistent.distinct).mpr ?_
  intro name
  rw [again.names, consistent.names, declared_rebuild consistent areRead,
    displaced_rebuild consistent]
  rfl

end Embedded

namespace Field

variable {registry : Registry} {attributes : Attributes} {nested : Embedded}

theorem readAs_embedded {type : DocumentType} {rebuilts : List Field}
    (isResolved : registry.resolve nested.documentType.name = .ok type)
    (areRead : Record.fieldsOf registry
      (nested.declared.filterMap (Mapping.lookup (recordEntries nested.fields))) = .ok rebuilts) :
    ReadAs registry ⟨attributes, .embedded nested⟩
      ⟨attributes.rebind none, .embedded (.build type rebuilts nested.displaced)⟩ := by
  rw [ReadAs, ← attributes_toRecord ⟨attributes, .embedded nested⟩]
  obtain ⟨documentType, declared, displaced, fields, view⟩ := nested
  let record := toRecord ⟨attributes, .embedded ⟨documentType, declared, displaced, fields, view⟩⟩
  have isDisplaced : record.displaced.getD [] = displaced := by
    show (Record.displacedOf displaced).getD [] = displaced
    unfold Record.displacedOf
    by_cases none : displaced = []
    · rw [if_pos none, none]
      rfl
    · rw [if_neg none]
      rfl
  have isRead := @Record.toField_of_embedded registry record type rebuilts rfl rfl isResolved
    areRead
  rw [isDisplaced] at isRead
  exact isRead

end Field

/-! ## Reading with success -/

namespace Record

mutual

/-- The names of the document types in a record. -/
def documentTypes : Record → List String
  | ⟨_, _, element, documentType, fields, _, _, _, _, _, _, _, _⟩ =>
      documentType.toList ++ elementTypes element ++ nestedTypes fields
  termination_by structural record => record

/-- The names of the document types in an element record. -/
def elementTypes : Option Record → List String
  | none => []
  | some record => record.documentTypes
  termination_by structural element => element

/-- The names of the document types in the records of declared fields. -/
def nestedTypes : Option (List Record) → List String
  | none => []
  | some records => typesOf records
  termination_by structural fields => fields

/-- The names of the document types in records. -/
def typesOf : List Record → List String
  | [] => []
  | record :: rest => record.documentTypes ++ typesOf rest
  termination_by structural records => records

end

theorem mem_typesOf {records : List Record} {record : Record} (member : record ∈ records)
    {name : String} (isNamed : name ∈ record.documentTypes) : name ∈ typesOf records := by
  induction records with
  | nil => contradiction
  | cons first rest inductionHypothesis =>
      rw [typesOf, List.mem_append]
      rcases List.mem_cons.mp member with rfl | inRest
      · exact .inl isNamed
      · exact .inr (inductionHypothesis inRest)

theorem exists_fieldsOf {registry : Registry} {records : List Record}
    (each : ∀ record ∈ records, ∃ field, record.toField registry = .ok field) :
    ∃ fields, fieldsOf registry records = .ok fields := by
  induction records with
  | nil => exact ⟨[], rfl⟩
  | cons record rest inductionHypothesis =>
      rw [List.forall_mem_cons] at each
      obtain ⟨field, isRead⟩ := each.1
      obtain ⟨others, areRead⟩ := inductionHypothesis each.2
      refine ⟨field :: others, ?_⟩
      rw [fieldsOf, isRead, areRead]
      rfl

end Record

/-- Whether a registry has all document types that a record names. -/
def Registry.Resolves (registry : Registry) (record : Record) : Prop :=
  ∀ name ∈ record.documentTypes, ∃ type, registry.resolve name = .ok type

namespace Field

mutual

/-- The record of any field is read with success. -/
theorem exists_readAs (registry : Registry) : (field : Field) →
    registry.Resolves field.toRecord → ∃ rebuilt, field.ReadAs registry rebuilt
  | ⟨attributes, .list flavor none⟩, _ => ⟨_, readAs_list rfl rfl⟩
  | ⟨attributes, .dict flavor none⟩, _ => ⟨_, readAs_dict rfl rfl⟩
  | ⟨attributes, .list flavor (some element)⟩, resolves => by
      have inner : registry.Resolves element.toRecord := by
        intro name isNamed
        exact resolves name (List.mem_append_left _ (List.mem_append_right _ isNamed))
      obtain ⟨rebuilt, isRead⟩ := element.exists_readAs registry inner
      exact ⟨_, readAs_list (elementField_toRecord isRead) rfl⟩
  | ⟨attributes, .dict flavor (some element)⟩, resolves => by
      have inner : registry.Resolves element.toRecord := by
        intro name isNamed
        exact resolves name (List.mem_append_left _ (List.mem_append_right _ isNamed))
      obtain ⟨rebuilt, isRead⟩ := element.exists_readAs registry inner
      exact ⟨_, readAs_dict (elementField_toRecord isRead) rfl⟩
  | ⟨attributes, .embedded ⟨documentType, declared, displaced, fields, view⟩⟩, resolves => by
      obtain ⟨type, isResolved⟩ := resolves documentType.name List.mem_cons_self
      have each : ∀ record ∈ declared.filterMap (Mapping.lookup (recordEntries fields)),
          ∃ field, record.toField registry = .ok field := by
        intro record isRecord
        obtain ⟨name, _, isRecorded⟩ := List.mem_filterMap.mp isRecord
        rw [lookup_recordEntries, Option.map_eq_some_iff] at isRecorded
        obtain ⟨field, isFound, rfl⟩ := isRecorded
        refine entries_exists_readAs registry fields _ (Mapping.mem_of_lookup isFound) ?_
        intro typeName isNamed
        exact resolves typeName (List.mem_append_right _ (Record.mem_typesOf isRecord isNamed))
      obtain ⟨rebuilts, areRead⟩ := Record.exists_fieldsOf each
      exact ⟨_, readAs_embedded isResolved areRead⟩
  | ⟨attributes, .objectId⟩, _ | ⟨attributes, .uuid⟩, _ | ⟨attributes, .boolean⟩, _
  | ⟨attributes, .int⟩, _ | ⟨attributes, .frameNumber⟩, _ | ⟨attributes, .float _ _⟩, _
  | ⟨attributes, .string⟩, _ | ⟨attributes, .date⟩, _ | ⟨attributes, .dateTime⟩, _
  | ⟨attributes, .geo _⟩, _ | ⟨attributes, .vector⟩, _ | ⟨attributes, .array⟩, _ =>
      ⟨_, readAs_scalar rfl⟩
  termination_by structural field => field

theorem entries_exists_readAs (registry : Registry) : (fields : List (String × Field)) →
    ∀ entry ∈ fields, registry.Resolves entry.2.toRecord →
      ∃ rebuilt, entry.2.ReadAs registry rebuilt
  | [], _, member, _ => absurd member List.not_mem_nil
  | (_, field) :: rest, entry, member, resolves => by
      rcases List.mem_cons.mp member with rfl | inRest
      · exact field.exists_readAs registry resolves
      · exact entries_exists_readAs registry rest entry inRest resolves
  termination_by structural fields => fields

end

end Field

end SchemaTree
