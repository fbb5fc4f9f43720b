import SchemaTree.Proofs.Field.Deep
import SchemaTree.Proofs.Record.RoundTrip

/-!
The paths that a record keeps.  A record lists the declared fields of a document, each with all that
is below it; of the other fields it gives back the defaults of the document type, whatever was
declared inside of them.
-/

namespace SchemaTree

/-- The field that a record gives back under a name: of the declared fields of that name, the
last. -/
def Embedded.recorded? (nested : Embedded) (name : String) : Option Field :=
  nested.declaredFields.reverse.find? fun field => field.name = name

/-- The type of the field that the record of a field keeps at the end of a row of names.  Where
nothing is recorded, it is that of a default of the document type which was not displaced. -/
def Field.kept? : List String → Field → Option FieldType
  | [], field =>
      some field.type
  | name :: rest, field =>
      field.nested?.bind fun nested =>
        match nested.recorded? name with
        | some recorded => recorded.kept? rest
        | none =>
            if name ∈ nested.displaced then none
            else (Mapping.lookup nested.documentType.fields name).bind fun default =>
              (default.effective? rest).map Field.type

/-! ## Reading -/

theorem FieldType.fieldType_of_kind? {type : FieldType} {element : Option Field}
    {least greatest : Option Binary64} {kind : Kind}
    (isKind : type.kind? element least greatest = some kind) : kind.fieldType = type := by
  cases type <;> cases isKind <;> rfl

theorem Record.type_of_toField {registry : Registry} {record : Record} {field : Field}
    (isRead : record.toField registry = .ok field) :
    FieldType.parse record.type = .ok field.type := by
  obtain ⟨type, element, isType, _, ⟨kind, isKind, rfl⟩ | ⟨isDocument, _, _, _, _, rfl⟩⟩ :=
    toField_cases isRead
  · rw [isType, ← FieldType.fieldType_of_kind? isKind]
    rfl
  · rw [isType, isDocument]
    rfl

namespace Field

variable {registry : Registry} {field rebuilt : Field} {nested : Embedded} {rebuilts : List Field}

theorem ReadAs.unique {other : Field} (first : field.ReadAs registry rebuilt)
    (second : field.ReadAs registry other) : rebuilt = other :=
  Except.ok.inj (first.symm.trans second)

@[simp]
theorem ReadAs.type (isRead : field.ReadAs registry rebuilt) : rebuilt.type = field.type := by
  have isType := Record.type_of_toField isRead
  rw [type_toRecord, FieldType.parse_typeName, Except.ok.injEq] at isType
  exact isType.symm

theorem fieldsOf_toRecord_iff {fields : List Field} :
    Record.fieldsOf registry (fields.map toRecord) = .ok rebuilts ↔
      List.Forall₂ (ReadAs registry) fields rebuilts := by
  induction fields generalizing rebuilts with
  | nil =>
      rw [List.forall₂_nil_left_iff, List.map_nil, Record.fieldsOf, Except.ok.injEq]
      exact eq_comm
  | cons field rest inductionHypothesis =>
      rw [List.map_cons, Record.fieldsOf, bind_eq_ok_iff, List.forall₂_cons_left_iff]
      refine exists_congr fun rebuilt => ?_
      rw [map_eq_ok_iff, ← exists_and_left]
      refine exists_congr fun others => ?_
      rw [inductionHypothesis, eq_comm (a := rebuilt :: others)]
      rfl

theorem recordEntries_declared (nested : Embedded) :
    nested.declared.filterMap (Mapping.lookup (recordEntries nested.fields)) =
      nested.declaredFields.map toRecord := by
  rw [Embedded.declaredFields, List.map_filterMap]
  exact List.filterMap_congr fun name _ => lookup_recordEntries nested.fields name

/-- A document is read as one that is built from what its declared fields are read as. -/
theorem readAs_of_declaredFields {attributes : Attributes}
    (known : registry.Knows ⟨attributes, .embedded nested⟩)
    (areRead : List.Forall₂ (ReadAs registry) nested.declaredFields rebuilts) :
    ReadAs registry ⟨attributes, .embedded nested⟩
      ⟨attributes.rebind none, .embedded (nested.rebuild rebuilts)⟩ := by
  refine readAs_embedded (known nested rfl) ?_
  rw [recordEntries_declared]
  exact fieldsOf_toRecord_iff.mpr areRead

theorem mem_of_mem_declaredFields (isDeclared : field ∈ nested.declaredFields) :
    ∃ name, (name, field) ∈ nested.fields := by
  obtain ⟨name, _, isFound⟩ := List.mem_filterMap.mp isDeclared
  exact ⟨name, Mapping.mem_of_lookup isFound⟩

theorem exists_mem_of_mem_typesOf {records : List Record} {name : String}
    (isNamed : name ∈ Record.typesOf records) :
    ∃ record ∈ records, name ∈ record.documentTypes := by
  induction records with
  | nil => contradiction
  | cons record rest inductionHypothesis =>
      rcases List.mem_append.mp isNamed with isFirst | isLater
      · exact ⟨record, .head _, isFirst⟩
      · obtain ⟨other, isOther, isNamed⟩ := inductionHypothesis isLater
        exact ⟨other, .tail _ isOther, isNamed⟩

/-- A registry that knows the document types of a field has those that its record names. -/
theorem resolves_of_knows (registry : Registry) : (field : Field) →
    field.Everywhere registry.Knows → registry.Resolves field.toRecord
  | ⟨_, .list _ (some element)⟩, known => by
      intro name isNamed
      refine resolves_of_knows registry element (known.element rfl) name ?_
      simpa [toRecord, Record.documentTypes, Record.ofAttributes, Record.elementTypes,
        Record.nestedTypes] using isNamed
  | ⟨_, .dict _ (some element)⟩, known => by
      intro name isNamed
      refine resolves_of_knows registry element (known.element rfl) name ?_
      simpa [toRecord, Record.documentTypes, Record.ofAttributes, Record.elementTypes,
        Record.nestedTypes] using isNamed
  | ⟨attributes, .embedded ⟨documentType, declared, displaced, fields, view⟩⟩, known => by
      intro name isNamed
      rcases List.mem_append.mp isNamed with isType | isInner
      · rw [List.mem_singleton.mp isType]
        exact ⟨documentType, known.here _ rfl⟩
      · obtain ⟨record, isRecord, isNamed⟩ := exists_mem_of_mem_typesOf isInner
        obtain ⟨key, _, isRecorded⟩ := List.mem_filterMap.mp isRecord
        rw [lookup_recordEntries, Option.map_eq_some_iff] at isRecorded
        obtain ⟨field, isFound, rfl⟩ := isRecorded
        have isEntry := Mapping.mem_of_lookup isFound
        exact resolves_of_knows registry field (known.member rfl isEntry) name isNamed
  | ⟨_, .list _ none⟩, _ | ⟨_, .dict _ none⟩, _
  | ⟨_, .objectId⟩, _ | ⟨_, .uuid⟩, _ | ⟨_, .boolean⟩, _ | ⟨_, .int⟩, _ | ⟨_, .frameNumber⟩, _
  | ⟨_, .float _ _⟩, _ | ⟨_, .string⟩, _ | ⟨_, .date⟩, _ | ⟨_, .dateTime⟩, _ | ⟨_, .geo _⟩, _
  | ⟨_, .vector⟩, _ | ⟨_, .array⟩, _ => nofun
  termination_by field => sizeOf field
  decreasing_by
    · exact sizeOf_element_lt rfl
    · exact sizeOf_element_lt rfl
    · exact (Holds.document attributes _).sizeOf_member_lt isEntry

theorem exists_readAs_of_knows (known : field.Everywhere registry.Knows) :
    ∃ rebuilt, field.ReadAs registry rebuilt :=
  field.exists_readAs registry (resolves_of_knows registry field known)

theorem embedded?_eq_none_iff : field.embedded? = none ↔ field.type ≠ .embeddedDocument := by
  obtain ⟨attributes, kind⟩ := field
  cases kind with
  | list flavor element =>
      cases flavor <;> simp [embedded?, Field.type, Kind.fieldType, ListFlavor.fieldType]
  | dict flavor element =>
      cases flavor <;> simp [embedded?, Field.type, Kind.fieldType, DictFlavor.fieldType]
  | geo geometry =>
      cases geometry <;> simp [embedded?, Field.type, Kind.fieldType, GeoKind.fieldType]
  | _ => simp [embedded?, Field.type, Kind.fieldType]

/-- The payload of a field is read as one that is built from what its declared fields are read
as. -/
theorem ReadAs.payload (isRead : field.ReadAs registry rebuilt)
    (known : field.Everywhere registry.Knows) (holds : field.Holds nested) :
    ∃ rebuilts, rebuilt.Holds (nested.rebuild rebuilts) ∧
      List.Forall₂ (ReadAs registry) nested.declaredFields rebuilts := by
  have each : ∀ field ∈ nested.declaredFields, ∃ rebuilt, field.ReadAs registry rebuilt := by
    intro field isDeclared
    obtain ⟨name, isEntry⟩ := mem_of_mem_declaredFields isDeclared
    exact exists_readAs_of_knows (known.below holds isEntry)
  obtain ⟨rebuilts, areRead⟩ := exists_forall₂ each
  refine ⟨rebuilts, ?_, areRead⟩
  cases holds with
  | document =>
      rw [isRead.unique (readAs_of_declaredFields known.here areRead)]
      exact .document _ _
  | list =>
      have inner := readAs_of_declaredFields (known.element rfl).here areRead
      rw [isRead.unique (readAs_list (elementField_toRecord inner) rfl)]
      exact .list _ _ _ _
  | dict =>
      have inner := readAs_of_declaredFields (known.element rfl).here areRead
      rw [isRead.unique (readAs_dict (elementField_toRecord inner) rfl)]
      exact .dict _ _ _ _

@[simp]
theorem type_renamed (field : Field) (newName : String) :
    (field.renamed newName).type = field.type := by
  obtain ⟨attributes, kind⟩ := field
  cases kind with
  | list flavor element => cases element <;> rfl
  | dict flavor element => cases element <;> rfl
  | _ => rfl

/-- A field without a payload is read as one without a payload. -/
theorem ReadAs.nested?_eq_none (isRead : field.ReadAs registry rebuilt)
    (known : field.Everywhere registry.Knows) (isPlain : field.nested? = none) :
    rebuilt.nested? = none := by
  have plainElement {element other : Field} (inner : element.ReadAs registry other)
      (newName : String) (isPlain : element.embedded? = none) :
      (other.renamed newName).embedded? = none := by
    rw [embedded?_eq_none_iff, type_renamed, inner.type]
    exact embedded?_eq_none_iff.mp isPlain
  obtain ⟨attributes, kind⟩ := field
  cases kind with
  | embedded nested => contradiction
  | list flavor element =>
      cases element with
      | none =>
          rw [isRead.unique (readAs_list rfl rfl)]
          rfl
      | some element =>
          obtain ⟨other, inner⟩ := exists_readAs_of_knows (known.element rfl)
          rw [isRead.unique (readAs_list (elementField_toRecord inner) rfl)]
          exact plainElement inner _ isPlain
  | dict flavor element =>
      cases element with
      | none =>
          rw [isRead.unique (readAs_dict rfl rfl)]
          rfl
      | some element =>
          obtain ⟨other, inner⟩ := exists_readAs_of_knows (known.element rfl)
          rw [isRead.unique (readAs_dict (elementField_toRecord inner) rfl)]
          exact plainElement inner _ isPlain
  | _ =>
      rw [isRead.unique (readAs_scalar rfl)]
      rfl

/-! ## Kept paths -/

/-- The types below a field do not depend on where it is attached. -/
@[simp]
theorem effective?_rebind (names : List String) (field : Field) (binding : Option Binding) :
    ((field.rebind binding).effective? names).map Field.type =
      (field.effective? names).map Field.type := by
  induction names generalizing field binding with
  | nil => simp [effective?]
  | cons name rest inductionHypothesis =>
      rw [effective?_cons, effective?_cons, nested?_rebind]
      cases field.nested? with
      | none => rfl
      | some nested =>
          simp only [Option.map_some, Option.bind_some, Embedded.fields_rebind,
            lookup_rebindEntries]
          cases Mapping.lookup nested.fields name with
          | none => rfl
          | some found => exact inductionHypothesis found _

theorem lookup_fields_rebuild (nested : Embedded) (rebuilts : List Field) (name : String) :
    Mapping.lookup (nested.rebuild rebuilts).fields name =
      ((rebuilts.reverse.find? fun field => field.name = name).map Field.copy).or
        (if name ∈ nested.displaced then none
          else Mapping.lookup nested.documentType.fields name) := by
  rw [Embedded.rebuild, Embedded.lookup_build, lookup_copies]
  congr 1
  have isFilter : name ∈ (Embedded.build nested.documentType rebuilts nested.displaced).displaced ↔
      name ∈ nested.displaced ∧ name ∈ Mapping.keys nested.documentType.fields := by
    rw [← Mapping.contains_iff]
    exact List.mem_filter
  by_cases isDisplaced : name ∈ nested.displaced
  · by_cases isDefault : name ∈ Mapping.keys nested.documentType.fields
    · simp [isFilter, isDisplaced, isDefault]
    · simp [isFilter, isDisplaced, isDefault, Mapping.lookup_eq_none_iff]
  · simp [isFilter, isDisplaced]

/-- What is read from a record has the paths that the record keeps, with the same types. -/
theorem ReadAs.effective?_eq_kept? (isRead : field.ReadAs registry rebuilt)
    (known : field.Everywhere registry.Knows) (names : List String) :
    (rebuilt.effective? names).map Field.type = field.kept? names := by
  induction names generalizing field rebuilt with
  | nil => simp [effective?, kept?, isRead.type]
  | cons name rest inductionHypothesis =>
      rw [effective?_cons, kept?]
      cases isNested : field.nested? with
      | none =>
          rw [isRead.nested?_eq_none known isNested]
          rfl
      | some nested =>
          have holds := nested?_eq_some_iff.mp isNested
          obtain ⟨rebuilts, isHeld, areRead⟩ := isRead.payload known holds
          have sameName : ∀ recorded other : Field, recorded.ReadAs registry other →
              decide (recorded.name = name) = decide (other.name = name) := by
            intro recorded other inner
            rw [inner.named]
          simp only [nested?_eq_some_iff.mpr isHeld, Option.bind_some, lookup_fields_rebuild]
          rcases find?_forall₂ sameName (List.forall₂_reverse_iff.mpr areRead) with
            ⟨notRecorded, notRead⟩ | ⟨recorded, other, isRecorded, isOther, inner⟩
          · have nothing : nested.recorded? name = none := notRecorded
            rw [notRead, nothing]
            split
            · rfl
            · simp [Option.map_bind]
          · have something : nested.recorded? name = some recorded := isRecorded
            have isDeclared := List.mem_reverse.mp (List.mem_of_find?_eq_some isRecorded)
            obtain ⟨key, isEntry⟩ := mem_of_mem_declaredFields isDeclared
            rw [isOther, something, Option.map_some, Option.some_or, Option.bind_some, copy, detach,
              effective?_rebind]
            exact inductionHypothesis inner (known.below holds isEntry)

end Field

/-! ## Declarations along declared names -/

/-- Whether a row of names leads through declared fields only. -/
def Embedded.DeclaredAlong : List String → Embedded → Prop
  | [], _ => True
  | name :: rest, nested =>
      name ∈ nested.declared ∧ ∀ field inner, Mapping.lookup nested.fields name = some field →
        field.Holds inner → inner.DeclaredAlong rest

namespace Field

/-- A field after a run of declarations on documents below it.  A declaration that fails leaves it
unchanged. -/
def declareAll (field : Field) (declarations : List Declaration) : Field :=
  declarations.foldl (fun before declaration =>
    before.editBelow declaration.edit declaration.target) field

/-- Whether every declaration of a run reaches its document through declared fields only. -/
def DeclaresAlong : Field → List Declaration → Prop
  | _, [] => True
  | field, declaration :: rest =>
      (∀ nested, field.Holds nested → nested.DeclaredAlong declaration.target) ∧
        (field.editBelow declaration.edit declaration.target).DeclaresAlong rest

end Field

section Coherent

variable {field : Field} {nested : Embedded} {name : String}

theorem Field.Coherent.held (coherent : field.Coherent) (holds : field.Holds nested) :
    nested.Coherent := by
  cases holds with
  | document => exact coherent.payload
  | list =>
      cases coherent with
      | scalar _ isScalar => contradiction
      | list _ _ _ inner => exact inner.payload
  | dict =>
      cases coherent with
      | scalar _ isScalar => contradiction
      | dict _ _ _ inner => exact inner.payload

theorem Embedded.Consistent.adjust (consistent : nested.Consistent) {change : Field → Field}
    (isDeclared : name ∈ nested.declared) (named : ∀ field, (change field).name = field.name) :
    Embedded.Consistent { nested with fields := Mapping.adjust nested.fields name change } where
  type := consistent.type
  distinct := by
    rw [Mapping.keys_adjust]
    exact consistent.distinct
  displaced := consistent.displaced
  names := by
    intro other
    rw [Mapping.keys_adjust]
    exact consistent.names other
  declared := by
    intro other otherDeclared found isFound
    rw [Mapping.lookup_adjust] at isFound
    by_cases same : name = other
    · rw [if_pos same] at isFound
      obtain ⟨before, wasFound, rfl⟩ := Option.map_eq_some_iff.mp isFound
      exact (named before).trans (consistent.declared other otherDeclared before wasFound)
    · rw [if_neg same] at isFound
      exact consistent.declared other otherDeclared found isFound
  undeclared := by
    intro other isUndeclared found isFound
    have different : name ≠ other := by
      rintro rfl
      exact isUndeclared isDeclared
    rw [Mapping.lookup_adjust, if_neg different] at isFound
    exact consistent.undeclared other isUndeclared found isFound

/-- An edit that is reached through declared fields only keeps a payload coherent. -/
theorem Embedded.Coherent.editAt {edit : Edit} {target : List String} (coherent : nested.Coherent)
    (isDeclared : nested.DeclaredAlong target)
    (given : ∀ field, edit.field? = some field → field.Coherent) :
    (nested.editAt edit target).Coherent := by
  induction target generalizing nested with
  | nil => exact coherent.apply given
  | cons name rest inductionHypothesis =>
      obtain ⟨nameDeclared, along⟩ := isDeclared
      refine ⟨coherent.unviewed, coherent.consistent.adjust nameDeclared ?_, ?_⟩
      · intro field
        rw [Field.name, Field.attributes_modifyNested]
        rfl
      · intro other found isFound
        rw [Embedded.editAt, Mapping.lookup_adjust] at isFound
        by_cases same : name = other
        · rw [if_pos same] at isFound
          obtain ⟨before, wasFound, rfl⟩ := Option.map_eq_some_iff.mp isFound
          have beforeCoherent := coherent.each other before wasFound
          cases isNested : before.nested? with
          | none =>
              rw [Field.modifyNested_of_nested?_eq_none isNested]
              exact beforeCoherent
          | some inner =>
              have holds := Field.nested?_eq_some_iff.mp isNested
              have innerCoherent := inductionHypothesis (beforeCoherent.held holds)
                (along before inner (same ▸ wasFound) holds)
              rw [holds.modifyNested_eq_const]
              exact beforeCoherent.modifyNested fun _ _ => innerCoherent
        · rw [if_neg same] at isFound
          exact coherent.each other found isFound

theorem Field.Coherent.editBelow {edit : Edit} {target : List String} (coherent : field.Coherent)
    (isDeclared : ∀ nested, field.Holds nested → nested.DeclaredAlong target)
    (given : ∀ field, edit.field? = some field → field.Coherent) :
    (field.editBelow edit target).Coherent := by
  rw [editBelow_eq_modifyNested]
  cases isNested : field.nested? with
  | none =>
      rw [modifyNested_of_nested?_eq_none isNested]
      exact coherent
  | some nested =>
      have holds := nested?_eq_some_iff.mp isNested
      have changed := (coherent.held holds).editAt (isDeclared nested holds) given
      rw [holds.modifyNested_eq_const]
      exact coherent.modifyNested fun _ _ => changed

theorem Field.Coherent.declareAll {declarations : List Declaration} (coherent : field.Coherent)
    (along : field.DeclaresAlong declarations)
    (given : ∀ declaration ∈ declarations, declaration.field.Coherent) :
    (field.declareAll declarations).Coherent := by
  induction declarations generalizing field with
  | nil => exact coherent
  | cons declaration rest inductionHypothesis =>
      rw [List.forall_mem_cons] at given
      refine inductionHypothesis (coherent.editBelow along.1 ?_) along.2 given.2
      rintro _ ⟨⟩
      exact given.1

/-- If all declared names hold fields of these names, these are recorded under them, and no
others. -/
theorem Embedded.recorded?_of_named (named : ∀ name ∈ nested.declared,
    ∃ field, Mapping.lookup nested.fields name = some field ∧ field.name = name) :
    nested.recorded? name =
      if name ∈ nested.declared then Mapping.lookup nested.fields name else none := by
  rw [recorded?]
  cases isRecorded : nested.declaredFields.reverse.find? fun field => field.name = name with
  | none =>
      have isUndeclared : name ∉ nested.declared := by
        intro isDeclared
        obtain ⟨field, isFound, isNamed⟩ := named name isDeclared
        have isField : field ∈ nested.declaredFields.reverse :=
          List.mem_reverse.mpr (List.mem_filterMap.mpr ⟨name, isDeclared, isFound⟩)
        exact List.find?_eq_none.mp isRecorded field isField (decide_eq_true isNamed)
      rw [if_neg isUndeclared]
  | some field =>
      have isNamed : field.name = name := by simpa using List.find?_some isRecorded
      have isField := List.mem_reverse.mp (List.mem_of_find?_eq_some isRecorded)
      obtain ⟨other, isDeclared, isFound⟩ := List.mem_filterMap.mp isField
      obtain ⟨same, isSame, hasName⟩ := named other isDeclared
      obtain rfl : same = field := Option.some.inj (isSame.symm.trans isFound)
      obtain rfl : other = name := hasName.symm.trans isNamed
      rw [if_pos isDeclared, isFound]

theorem Embedded.Consistent.recorded?_eq (consistent : nested.Consistent) :
    nested.recorded? name =
      if name ∈ nested.declared then Mapping.lookup nested.fields name else none := by
  refine recorded?_of_named fun other isDeclared => ?_
  obtain ⟨field, isFound⟩ :=
    Mapping.mem_keys_iff.mp ((consistent.names other).mpr (.inl isDeclared))
  exact ⟨field, isFound, consistent.declared other isDeclared field isFound⟩

/-- The record of a coherent field keeps all paths. -/
theorem Field.Coherent.kept?_eq_effective? (coherent : field.Coherent) (names : List String) :
    field.kept? names = (field.effective? names).map Field.type := by
  induction names generalizing field with
  | nil => rfl
  | cons name rest inductionHypothesis =>
      rw [kept?, effective?_cons]
      cases isNested : field.nested? with
      | none => rfl
      | some nested =>
          have payload := coherent.held (nested?_eq_some_iff.mp isNested)
          have consistent := payload.consistent
          simp only [Option.bind_some, consistent.recorded?_eq]
          by_cases isDeclared : name ∈ nested.declared
          · obtain ⟨found, isFound⟩ :=
              Mapping.mem_keys_iff.mp ((consistent.names name).mpr (.inl isDeclared))
            simp only [if_pos isDeclared, isFound, Option.bind_some]
            exact inductionHypothesis (payload.each name found isFound)
          · simp only [if_neg isDeclared]
            cases isFound : Mapping.lookup nested.fields name with
            | some found =>
                have isDefault := consistent.undeclared name isDeclared found isFound
                have isPlaced := (consistent.names name).mp (Mapping.mem_keys_of_lookup isFound)
                rw [if_neg (isPlaced.resolve_left isDeclared).2, isDefault]
                exact effective?_rebind rest found none
            | none =>
                have isAbsent := Mapping.lookup_eq_none_iff.mp isFound
                split
                · rfl
                · next isUndisplaced =>
                    have noDefault : Mapping.lookup nested.documentType.fields name = none := by
                      refine Mapping.lookup_eq_none_iff.mpr fun isDefault => isAbsent ?_
                      exact (consistent.names name).mpr (.inr ⟨isDefault, isUndisplaced⟩)
                    rw [noDefault]
                    rfl

end Coherent

/-- The record of a field is read with success after declarations at any depth, and what is read
has the paths that the record keeps.  These are all paths if the field was assembled and every
declaration reached its document through declared fields. -/
theorem Field.paths_toField_toRecord {registry : Registry} (field : Field)
    (declarations : List Declaration)
    (known : (field.declareAll declarations).Everywhere registry.Knows) :
    ∃ rebuilt, (field.declareAll declarations).toRecord.toField registry = .ok rebuilt ∧
      (∀ names, (rebuilt.effective? names).map Field.type =
        (field.declareAll declarations).kept? names) ∧
      (field.Assembled → (∀ declaration ∈ declarations, declaration.field.Assembled) →
        field.DeclaresAlong declarations →
          ∀ names found, (field.declareAll declarations).effective? names = some found →
            ∃ other, rebuilt.effective? names = some other ∧ other.type = found.type) := by
  obtain ⟨rebuilt, isRead⟩ := exists_readAs_of_knows known
  refine ⟨rebuilt, isRead, isRead.effective?_eq_kept? known, ?_⟩
  intro assembled given along names found isFound
  have coherent := assembled.coherent.declareAll along fun declaration isGiven =>
    (given declaration isGiven).coherent
  have kept := isRead.effective?_eq_kept? known names
  rw [coherent.kept?_eq_effective?, isFound] at kept
  exact Option.map_eq_some_iff.mp kept

def lensType : DocumentType :=
  ⟨"Lens", none, [("focus", .float "focus")]⟩

/-- Cameras that have a lens by default. -/
def cameraType : DocumentType :=
  ⟨"Camera", none, [("lens", .embedded "lens" lensType)]⟩

def cameraTypes : Registry :=
  ⟨[("Lens", lensType), ("Camera", cameraType)]⟩

/-- A second lens is declared, and then a field on it. -/
def secondLens : List Declaration :=
  [⟨[], none, "camera.spare", .embedded "spare" lensType⟩,
    ⟨["spare"], none, "camera.spare.zoom", .int "zoom"⟩]

theorem paths_toField_toRecord_secondLens :
    let plain := Field.embedded "camera" cameraType
    let camera := plain.declareAll secondLens
    (camera.Everywhere cameraTypes.Knows ∧ plain.Assembled ∧
        (∀ declaration ∈ secondLens, declaration.field.Assembled) ∧
        plain.DeclaresAlong secondLens) ∧
      ∃ rebuilt, camera.toRecord.toField cameraTypes = .ok rebuilt ∧
        (∀ names, (rebuilt.effective? names).map Field.type = camera.kept? names) ∧
        ∀ names found, camera.effective? names = some found →
          ∃ other, rebuilt.effective? names = some other ∧ other.type = found.type := by
  have known : ((Field.embedded "camera" cameraType).declareAll secondLens).Everywhere
      cameraTypes.Knows := by
    refine ⟨?_, ⟨?_, ⟨nofun, trivial⟩, trivial⟩,
      ⟨?_, ⟨nofun, trivial⟩, ⟨nofun, trivial⟩, trivial⟩, trivial⟩
    all_goals
      rintro nested ⟨⟩
      rfl
  have isLens : lensType.Assembled := by
    have built : DocumentType.build "Lens" none [.float "focus"] = .ok lensType := rfl
    refine .build built nofun fun inner member => ?_
    rw [List.mem_singleton.mp member]
    exact .scalar "focus" rfl
  have assembled : (Field.embedded "camera" cameraType).Assembled := by
    have built : DocumentType.build "Camera" none [.embedded "lens" lensType] = .ok cameraType :=
      rfl
    refine .embedded "camera" (.build built nofun fun inner member => ?_)
    rw [List.mem_singleton.mp member]
    exact .embedded "lens" isLens
  have given : ∀ declaration ∈ secondLens, declaration.field.Assembled := by
    intro declaration isGiven
    rcases List.mem_pair.mp isGiven with rfl | rfl
    · exact .embedded "spare" isLens
    · exact .scalar "zoom" rfl
  have along : (Field.embedded "camera" cameraType).DeclaresAlong secondLens := by
    refine ⟨fun _ _ => trivial, ?_, trivial⟩
    rintro nested ⟨⟩
    exact ⟨by decide, fun _ _ _ _ => trivial⟩
  obtain ⟨rebuilt, isRead, areKept, allKept⟩ := Field.paths_toField_toRecord _ _ known
  exact ⟨⟨known, assembled, given, along⟩, rebuilt, isRead, areKept,
    allKept assembled given along⟩

/-- A field is declared on the lens that a camera has by default. -/
def zoomedCamera : Field :=
  (Field.embedded "camera" cameraType).declareAll
    [⟨["lens"], none, "camera.lens.zoom", .int "zoom"⟩]

theorem path_lost_zoomedCamera :
    zoomedCamera.Everywhere cameraTypes.Knows ∧
      (zoomedCamera.effective? ["lens", "zoom"]).map Field.type = some .int ∧
      ∃ rebuilt, zoomedCamera.toRecord.toField cameraTypes = .ok rebuilt ∧
        (rebuilt.effective? ["lens"]).map Field.type = some .embeddedDocument ∧
        rebuilt.effective? ["lens", "zoom"] = none := by
  refine ⟨⟨?_, ⟨?_, ⟨nofun, trivial⟩, ⟨nofun, trivial⟩, trivial⟩, trivial⟩, rfl, _, rfl, rfl, rfl⟩
  all_goals
    rintro nested ⟨⟩
    rfl

end SchemaTree
