import SchemaTree.Proofs.Field.Lifecycle
import SchemaTree.Proofs.Record.Exchange
import SchemaTree.Proofs.Record.Paths

/-!
Virtual fields that are persisted.  A field that is recorded, written as JSON data, read again and
rebuilt has the elements and the declared fields of the original, to any depth.  These are virtual
if they were and their expressions are not null; a null expression is taken for none.
-/

namespace SchemaTree

/-! ## Recorded fields inside a field -/

namespace Field

/-- The field that the record of a field gives back under a name. -/
def recorded? (field : Field) (name : String) : Option Field :=
  field.embedded?.bind fun nested => nested.recorded? name

/-- The field that a way through elements and declared fields leads to. -/
def recordedAt? : List Turn → Field → Option Field
  | [], field => some field
  | .element :: rest, field => field.element.bind (recordedAt? rest)
  | .member name :: rest, field => (field.recorded? name).bind (recordedAt? rest)

/-- A change that is made to the element and to the declared fields of a field as it is made to the
field. -/
structure Uniform (change : Field → Field) : Prop where
  element : ∀ field, (change field).element = field.element.map change
  recorded : ∀ field name, (change field).recorded? name = (field.recorded? name).map change

theorem recordedAt?_of_uniform {change : Field → Field} (uniform : Uniform change)
    (way : List Turn) (field : Field) :
    (change field).recordedAt? way = (field.recordedAt? way).map change := by
  induction way generalizing field with
  | nil => rfl
  | cons turn rest inductionHypothesis =>
      cases turn with
      | element =>
          rw [recordedAt?, recordedAt?, uniform.element]
          cases field.element with
          | none => rfl
          | some element => exact inductionHypothesis element
      | member name =>
          rw [recordedAt?, recordedAt?, uniform.recorded]
          cases field.recorded? name with
          | none => rfl
          | some part => exact inductionHypothesis part

end Field

/-- Fields that are changed one by one, and keep their names, are recorded as they are changed. -/
theorem Embedded.recorded?_of_map {nested changed : Embedded} {change : Field → Field}
    (sameDeclared : changed.declared = nested.declared)
    (each : ∀ name, Mapping.lookup changed.fields name =
      (Mapping.lookup nested.fields name).map change)
    (named : ∀ field, (change field).name = field.name) (name : String) :
    changed.recorded? name = (nested.recorded? name).map change := by
  have areChanged : changed.declaredFields = nested.declaredFields.map change := by
    rw [declaredFields, declaredFields, sameDeclared, List.map_filterMap]
    exact List.filterMap_congr fun name _ => each name
  rw [recorded?, recorded?, areChanged, ← List.map_reverse, List.find?_map]
  congr 2
  funext field
  exact congrArg (fun other => decide (other = name)) (named field)

/-- The fields that are recorded of a built payload are copies of those it is built from. -/
theorem Embedded.recorded?_build (type : DocumentType) (fields : List Field)
    (displaced : List String) (name : String) :
    (build type fields displaced).recorded? name =
      (fields.reverse.find? fun field => field.name = name).map Field.copy := by
  have given {other : String} (isDeclared : other ∈ fields.map Field.name) :
      ∃ copy, Mapping.lookup (Field.copies fields).reverse other = some copy := by
    rw [← Option.ne_none_iff_exists', ne_eq, Field.lookup_copies_eq_none_iff, not_not]
    exact isDeclared
  have named : ∀ other ∈ (build type fields displaced).declared, ∃ field,
      Mapping.lookup (build type fields displaced).fields other = some field ∧
        field.name = other := by
    intro other isDeclared
    obtain ⟨copy, isCopy⟩ := given isDeclared
    obtain ⟨field, _, isNamed, rfl⟩ := Field.copy_of_lookup_copies isCopy
    exact ⟨field.copy, by rw [lookup_build, isCopy]; rfl, (field.name_rebind none).trans isNamed⟩
  rw [recorded?_of_named named, lookup_build, ← Field.lookup_copies]
  by_cases isDeclared : name ∈ (build type fields displaced).declared
  · obtain ⟨copy, isCopy⟩ := given isDeclared
    rw [if_pos isDeclared, isCopy]
    rfl
  · rw [if_neg isDeclared, (Field.lookup_copies_eq_none_iff fields).mpr isDeclared]

namespace Field

theorem uniform_copy : Uniform copy where
  element field := element_rebind field none
  recorded field name := by
    rw [recorded?, recorded?, copy, detach, embedded?_rebind]
    cases field.embedded? with
    | none => rfl
    | some nested =>
        have each : ∀ key, Mapping.lookup (nested.rebind none).fields key =
            (Mapping.lookup nested.fields key).map copy := by
          intro key
          rw [Embedded.fields_rebind, lookup_rebindEntries]
          rfl
        exact Embedded.recorded?_of_map (nested.declared_rebind none) each
          (fun part => part.name_rebind none) name

@[simp]
theorem isVirtual_copy (field : Field) : field.copy.isVirtual = field.isVirtual := by
  rw [isVirtual_eq, isVirtual_eq, copy, detach, expression_rebind, Option.isSome_map]

@[simp]
theorem isVirtual_renamed (field : Field) (newName : String) :
    (field.renamed newName).isVirtual = field.isVirtual := by
  rw [isVirtual_eq, isVirtual_eq, expression_renamed]

/-- A field under another name has the same fields in it, of which only elements are renamed. -/
theorem isVirtual_recordedAt?_renamed (way : List Turn) (field : Field) (newName : String) :
    ((field.renamed newName).recordedAt? way).map isVirtual =
      (field.recordedAt? way).map isVirtual := by
  induction way generalizing field with
  | nil => simp [recordedAt?]
  | cons turn rest inductionHypothesis =>
      obtain ⟨attributes, kind⟩ := field
      cases turn with
      | element =>
          cases kind with
          | list flavor element =>
              cases element with
              | none => rfl
              | some element => exact inductionHypothesis element
          | dict flavor element =>
              cases element with
              | none => rfl
              | some element => exact inductionHypothesis element
          | _ => rfl
      | member name =>
          cases kind with
          | list flavor element => cases element <;> rfl
          | dict flavor element => cases element <;> rfl
          | _ => rfl

/-! ## Fields that are read -/

variable {registry : Registry} {field rebuilt : Field}

/-- A document is read as one that is built from what its declared fields are read as. -/
theorem ReadAs.document {attributes : Attributes} {nested : Embedded}
    (isRead : ReadAs registry ⟨attributes, .embedded nested⟩ rebuilt) :
    ∃ type rebuilts, rebuilt = ⟨attributes.rebind none,
        .embedded (.build type rebuilts nested.displaced)⟩ ∧
      List.Forall₂ (ReadAs registry) nested.declaredFields rebuilts := by
  obtain ⟨type, _, isType, _, ⟨kind, isKind, _⟩ | ⟨_, documentType, rebuilts, isResolved,
    areFields, _⟩⟩ := Record.toField_cases isRead
  · rw [type_toRecord, FieldType.parse_typeName, Except.ok.injEq] at isType
    subst isType
    contradiction
  · obtain ⟨original, declared, displaced, fields, view⟩ := nested
    refine ⟨documentType, rebuilts, isRead.unique (readAs_embedded isResolved areFields), ?_⟩
    rw [← fieldsOf_toRecord_iff, ← recordEntries_declared]
    exact areFields

/-- The element of what is read is read from the element, and takes the name of the container. -/
theorem ReadAs.element (isRead : field.ReadAs registry rebuilt) :
    field.element = none ∧ rebuilt.element = none ∨
      ∃ element other, field.element = some element ∧ element.ReadAs registry other ∧
        rebuilt.element = some (other.renamed field.name) := by
  obtain ⟨_, found, _, isElement, _⟩ := Record.toField_cases isRead
  obtain ⟨attributes, kind⟩ := field
  cases kind with
  | list flavor element =>
      cases element with
      | none =>
          rw [isRead.unique (readAs_list rfl rfl)]
          exact .inl ⟨rfl, rfl⟩
      | some element =>
          obtain ⟨other, inner, rfl⟩ := map_eq_ok_iff.mp isElement
          rw [isRead.unique (readAs_list (elementField_toRecord inner) rfl)]
          exact .inr ⟨element, other, rfl, inner, rfl⟩
  | dict flavor element =>
      cases element with
      | none =>
          rw [isRead.unique (readAs_dict rfl rfl)]
          exact .inl ⟨rfl, rfl⟩
      | some element =>
          obtain ⟨other, inner, rfl⟩ := map_eq_ok_iff.mp isElement
          rw [isRead.unique (readAs_dict (elementField_toRecord inner) rfl)]
          exact .inr ⟨element, other, rfl, inner, rfl⟩
  | embedded nested =>
      obtain ⟨type, rebuilts, rfl, _⟩ := isRead.document
      exact .inl ⟨rfl, rfl⟩
  | _ =>
      rw [isRead.unique (readAs_scalar rfl)]
      exact .inl ⟨rfl, rfl⟩

/-- A field that is recorded of what is read is read from one of its name. -/
theorem ReadAs.recorded (isRead : field.ReadAs registry rebuilt) (name : String) :
    field.recorded? name = none ∧ rebuilt.recorded? name = none ∨
      ∃ part other, field.recorded? name = some part ∧ part.ReadAs registry other ∧
        rebuilt.recorded? name = some other.copy := by
  cases isEmbedded : field.embedded? with
  | none =>
      have isPlain : rebuilt.embedded? = none := by
        rw [embedded?_eq_none_iff, isRead.type]
        exact embedded?_eq_none_iff.mp isEmbedded
      exact .inl ⟨by rw [recorded?, isEmbedded]; rfl, by rw [recorded?, isPlain]; rfl⟩
  | some nested =>
      obtain ⟨attributes, rfl⟩ := embedded?_eq_some_iff.mp isEmbedded
      obtain ⟨type, rebuilts, rfl, areRead⟩ := isRead.document
      have sameName : ∀ part other : Field, part.ReadAs registry other →
          decide (part.name = name) = decide (other.name = name) := by
        intro part other inner
        rw [inner.named]
      have isRecorded : recorded? ⟨attributes.rebind none,
          .embedded (.build type rebuilts nested.displaced)⟩ name = _ :=
        Embedded.recorded?_build type rebuilts nested.displaced name
      rw [isRecorded]
      rcases find?_forall₂ sameName (List.forall₂_reverse_iff.mpr areRead) with
        ⟨notRecorded, notRead⟩ | ⟨part, other, isPart, isOther, inner⟩
      · exact .inl ⟨notRecorded, by rw [notRead]; rfl⟩
      · exact .inr ⟨part, other, isPart, inner, by rw [isOther]; rfl⟩

theorem ReadAs.isVirtual_recordedAt? (isRead : field.ReadAs registry rebuilt) (way : List Turn) :
    (rebuilt.recordedAt? way).map isVirtual = (field.recordedAt? way).map isVirtual := by
  -- A turn leads to a field that was read and then renamed or copied, so that what is kept along
  -- the way is reading alone; what renaming and copying do to the rest of the way is known.
  induction way generalizing field rebuilt with
  | nil =>
      have isExpression : rebuilt.expression = field.expression.map Expression.uncompiled := by
        rw [expression, isRead.attributes_eq]
        rfl
      simp [recordedAt?, isVirtual_eq, isExpression]
  | cons turn rest inductionHypothesis =>
      cases turn with
      | element =>
          rw [recordedAt?, recordedAt?]
          rcases isRead.element with
            ⟨noElement, noOther⟩ | ⟨element, other, isElement, inner, isOther⟩
          · rw [noElement, noOther]
          · rw [isElement, isOther, Option.bind_some, Option.bind_some,
              isVirtual_recordedAt?_renamed, inductionHypothesis inner]
      | member name =>
          rw [recordedAt?, recordedAt?]
          rcases isRead.recorded name with
            ⟨noPart, noOther⟩ | ⟨part, other, isPart, inner, isOther⟩
          · rw [noPart, noOther]
          · rw [isPart, isOther, Option.bind_some, Option.bind_some,
              recordedAt?_of_uniform uniform_copy, Option.map_map, ← inductionHypothesis inner]
            exact Option.map_congr fun part _ => isVirtual_copy part

end Field

/-! ## What comes back -/

/-- The attributes that come back from JSON data: null stands for no expression. -/
def Attributes.returned (attributes : Attributes) : Attributes :=
  { attributes with
    expression :=
      ((attributes.expression.map Expression.source).bind Json.nonNull?).map Expression.ofSource }

mutual

/-- The field whose record comes back from JSON data for the record of a field. -/
def Field.returned : Field → Field
  | ⟨attributes, kind⟩ => ⟨attributes.returned, kind.returned⟩
  termination_by structural field => field

def Kind.returned : Kind → Kind
  | .list flavor (some element) => .list flavor (some element.returned)
  | .dict flavor (some element) => .dict flavor (some element.returned)
  | .float least greatest =>
      .float (least.filter Binary64.isFinite) (greatest.filter Binary64.isFinite)
  | .embedded nested => .embedded nested.returned
  | kind => kind
  termination_by structural kind => kind

def Embedded.returned : Embedded → Embedded
  | ⟨documentType, declared, displaced, fields, view⟩ =>
      ⟨documentType, declared, displaced, returnedEntries fields, view⟩
  termination_by structural nested => nested

def returnedEntries : List (String × Field) → List (String × Field)
  | [] => []
  | (name, field) :: rest => (name, field.returned) :: returnedEntries rest
  termination_by structural fields => fields

end

theorem returnedEntries_eq (fields : List (String × Field)) :
    returnedEntries fields = Mapping.mapValues (fun _ => Field.returned) fields := by
  induction fields with
  | nil => rfl
  | cons entry rest inductionHypothesis =>
      rw [returnedEntries, inductionHypothesis]
      rfl

@[simp]
theorem lookup_returnedEntries (fields : List (String × Field)) (name : String) :
    Mapping.lookup (returnedEntries fields) name =
      (Mapping.lookup fields name).map Field.returned := by
  rw [returnedEntries_eq, Mapping.lookup_mapValues]

@[simp]
theorem Embedded.declared_returned (nested : Embedded) :
    nested.returned.declared = nested.declared := by
  cases nested
  rfl

@[simp]
theorem Embedded.fields_returned (nested : Embedded) :
    nested.returned.fields = returnedEntries nested.fields := by
  cases nested
  rfl

namespace Record

theorem ofAttributes_returned (attributes : Attributes) (type : FieldType) :
    ofAttributes attributes.returned type = (ofAttributes attributes type).returned := by
  have isExpression : attributes.returned.expression.map Expression.source =
      (attributes.expression.map Expression.source).bind Json.nonNull? := by
    rw [Attributes.returned, Option.map_map]
    exact Option.map_id_apply
  rw [ofAttributes, isExpression]
  rfl

mutual

theorem documentTypes_returned : (record : Record) →
    record.returned.documentTypes = record.documentTypes
  | ⟨name, type, element, documentType, fields, displaced, least, greatest, description, info,
      required, nullable, expression⟩ => by
      rw [returned, documentTypes, documentTypes, elementTypes_returned element,
        nestedTypes_returned fields]
  termination_by structural record => record

theorem elementTypes_returned : (element : Option Record) →
    elementTypes (returnedElement element) = elementTypes element
  | none => rfl
  | some record => documentTypes_returned record
  termination_by structural element => element

theorem nestedTypes_returned : (fields : Option (List Record)) →
    nestedTypes (returnedFields fields) = nestedTypes fields
  | none => rfl
  | some records => typesOf_returned records
  termination_by structural fields => fields

theorem typesOf_returned : (records : List Record) →
    typesOf (returnedRecords records) = typesOf records
  | [] => rfl
  | record :: rest => by
      rw [returnedRecords, typesOf, typesOf, documentTypes_returned record, typesOf_returned rest]
  termination_by structural records => records

end

end Record

mutual

theorem Field.toRecord_returned : (field : Field) →
    field.returned.toRecord = field.toRecord.returned
  | ⟨attributes, .list flavor (some element)⟩ => by
      rw [Field.returned, Kind.returned, Field.toRecord, Field.toRecord,
        element.toRecord_returned, Record.ofAttributes_returned]
      rfl
  | ⟨attributes, .dict flavor (some element)⟩ => by
      rw [Field.returned, Kind.returned, Field.toRecord, Field.toRecord,
        element.toRecord_returned, Record.ofAttributes_returned]
      rfl
  | ⟨attributes, .embedded ⟨documentType, declared, displaced, fields, view⟩⟩ => by
      have records : declared.filterMap (Mapping.lookup (recordEntries (returnedEntries fields))) =
          Record.returnedRecords
            (declared.filterMap (Mapping.lookup (recordEntries fields))) := by
        rw [Record.returnedRecords_eq_map, List.map_filterMap]
        refine List.filterMap_congr fun name _ => ?_
        rw [lookup_recordEntries, lookup_recordEntries, lookup_returnedEntries]
        cases isFound : Mapping.lookup fields name with
        | none => rfl
        | some field =>
            exact congrArg some (toRecord_returned_of_mem fields _ (Mapping.mem_of_lookup isFound))
      rw [Field.returned, Kind.returned, Embedded.returned, Field.toRecord, Field.toRecord,
        Embedded.toRecord, Embedded.toRecord, records, Record.ofAttributes_returned]
      rfl
  | ⟨attributes, .float least greatest⟩ => by
      rw [Field.returned, Kind.returned, Field.toRecord, Field.toRecord,
        Record.ofAttributes_returned]
      rfl
  | ⟨attributes, .list flavor none⟩ | ⟨attributes, .dict flavor none⟩ | ⟨attributes, .objectId⟩
  | ⟨attributes, .uuid⟩ | ⟨attributes, .boolean⟩ | ⟨attributes, .int⟩ | ⟨attributes, .frameNumber⟩
  | ⟨attributes, .string⟩ | ⟨attributes, .date⟩ | ⟨attributes, .dateTime⟩
  | ⟨attributes, .geo geometry⟩ | ⟨attributes, .vector⟩ | ⟨attributes, .array⟩ =>
      Record.ofAttributes_returned attributes _
  termination_by structural field => field

theorem toRecord_returned_of_mem : (fields : List (String × Field)) → ∀ entry ∈ fields,
    entry.2.returned.toRecord = entry.2.toRecord.returned
  | [], _, member => absurd member List.not_mem_nil
  | (_, field) :: rest, entry, member => by
      rcases List.mem_cons.mp member with rfl | inRest
      · exact field.toRecord_returned
      · exact toRecord_returned_of_mem rest entry inRest
  termination_by structural fields => fields

end

namespace Field

theorem name_returned (field : Field) : field.returned.name = field.name := by
  cases field
  rfl

theorem uniform_returned : Uniform returned where
  element field := by
    obtain ⟨attributes, kind⟩ := field
    cases kind with
    | list flavor element => cases element <;> rfl
    | dict flavor element => cases element <;> rfl
    | _ => rfl
  recorded field name := by
    obtain ⟨attributes, kind⟩ := field
    cases kind with
    | list flavor element => cases element <;> rfl
    | dict flavor element => cases element <;> rfl
    | embedded nested =>
        have each : ∀ key, Mapping.lookup nested.returned.fields key =
            (Mapping.lookup nested.fields key).map returned := by
          simp
        exact Embedded.recorded?_of_map nested.declared_returned each name_returned name
    | _ => rfl

theorem isVirtual_returned_iff (field : Field) :
    field.returned.isVirtual = true ↔ field.isVirtual = true ∧ field.source ≠ some .null := by
  obtain ⟨⟨name, description, info, required, nullable, expression, binding⟩, kind⟩ := field
  cases expression with
  | none => simp [isVirtual, returned, Attributes.returned]
  | some expression =>
      obtain ⟨source, stage⟩ := expression
      cases source <;>
        simp [isVirtual, returned, Attributes.returned, Field.source, Field.expression,
          Json.nonNull?]

/-- A persisted field comes back with its elements and its declared fields, to any depth, and those
that were virtual are so again, unless their expressions are null. -/
theorem virtual_fields_persist {registry : Registry} (field : Field)
    (resolves : registry.Resolves field.toRecord) :
    ∃ record rebuilt, Record.ofJson field.toRecord.toJson = .ok record ∧
      record.toField registry = .ok rebuilt ∧
      ∀ way part, field.recordedAt? way = some part →
        ∃ other, rebuilt.recordedAt? way = some other ∧
          (other.isVirtual = true ↔ part.isVirtual = true ∧ part.source ≠ some .null) := by
  have resolvesReturned : registry.Resolves field.returned.toRecord := by
    rw [toRecord_returned, Registry.Resolves, Record.documentTypes_returned]
    exact resolves
  obtain ⟨rebuilt, isRead⟩ := field.returned.exists_readAs registry resolvesReturned
  refine ⟨_, rebuilt, Record.ofJson_toJson _, ?_, fun way part isPart => ?_⟩
  · rw [← toRecord_returned]
    exact isRead
  · have sameVirtual := isRead.isVirtual_recordedAt? way
    rw [recordedAt?_of_uniform uniform_returned, isPart, Option.map_some, Option.map_some]
      at sameVirtual
    obtain ⟨other, isOther, sameOther⟩ := Option.map_eq_some_iff.mp sameVirtual
    exact ⟨other, isOther, by rw [sameOther, isVirtual_returned_iff]⟩

end Field

def tallyType : DocumentType :=
  ⟨"Tally", none, []⟩

/-- Documents with a count that is computed, in a list that is computed as well. -/
def tallies : Field :=
  let count := (Field.int "count").withExpression (.object [("$size", .string "$tags")])
  (Field.list "tallies" (some (.embeddedWith "tally" tallyType [count] []))).withExpression
    (.string "$all")

theorem virtual_fields_persist_tallies :
    let registry : Registry := ⟨[("Tally", tallyType)]⟩
    registry.Resolves tallies.toRecord ∧
      (tallies.recordedAt? [.element, .member "count"]).map Field.isVirtual = some true ∧
      ∃ record rebuilt, Record.ofJson tallies.toRecord.toJson = .ok record ∧
        record.toField registry = .ok rebuilt ∧ rebuilt.isVirtual = true ∧
        ∃ count, rebuilt.recordedAt? [.element, .member "count"] = some count ∧
          count.isVirtual = true := by
  have resolves : Registry.Resolves ⟨[("Tally", tallyType)]⟩ tallies.toRecord := by
    intro name isNamed
    obtain rfl : name = "Tally" := List.mem_singleton.mp isNamed
    exact ⟨tallyType, rfl⟩
  obtain ⟨record, rebuilt, isRecord, isRebuilt, each⟩ :=
    Field.virtual_fields_persist tallies resolves
  obtain ⟨_, ⟨⟩, same⟩ := each [] _ rfl
  obtain ⟨count, isCount, sameCount⟩ := each [.element, .member "count"] _ rfl
  exact ⟨resolves, rfl, record, rebuilt, isRecord, isRebuilt, same.mpr ⟨rfl, nofun⟩, count,
    isCount, sameCount.mpr ⟨rfl, nofun⟩⟩

/-- A field is virtual with an expression that is null, and comes back as a regular one. -/
theorem virtual_field_lost_null :
    let total := (Field.int "total").withExpression .null
    total.isVirtual = true ∧
      ∃ record rebuilt, Record.ofJson total.toRecord.toJson = .ok record ∧
        record.toField ⟨[]⟩ = .ok rebuilt ∧ rebuilt.isVirtual = false :=
  ⟨rfl, _, _, Record.ofJson_toJson _, rfl, rfl⟩

end SchemaTree
