import SchemaTree.Proofs.Field.Equality
import SchemaTree.Proofs.Record.Reading

/-!
Fields that are rebuilt from their records.  A record names the declared fields and the displaced
defaults only; with the document type, which a registry gives back, these determine the mapping.
-/

namespace SchemaTree

/-- Whether a registry gives back the document type of a field, if it has one. -/
def Registry.Knows (registry : Registry) (field : Field) : Prop :=
  ∀ nested, field.kind = .embedded nested →
    registry.resolve nested.documentType.name = .ok nested.documentType

/-- A field that a record is read as: equal to a copy of the original, under its name at every
level of elements, and attached nowhere. -/
structure Field.Rebuilt (registry : Registry) (field rebuilt : Field) : Prop where
  isRead : field.ReadAs registry rebuilt
  same : rebuilt.equal field.copy = true
  detached : rebuilt.detach = rebuilt
  uniform : rebuilt.renamed field.name = rebuilt

namespace Field

variable {registry : Registry} {attributes : Attributes}

theorem Rebuilt.ofKind {kind changed : Kind} (wellFormed : attributes.WellFormed)
    (isRead : ReadAs registry ⟨attributes, kind⟩ ⟨attributes.rebind none, changed⟩)
    (same : changed.equal (kind.rebind none) = true) (detached : changed.rebind none = changed)
    (uniform : renamed attributes.name ⟨attributes.rebind none, changed⟩ =
      ⟨attributes.rebind none, changed⟩) :
    Rebuilt registry ⟨attributes, kind⟩ ⟨attributes.rebind none, changed⟩ where
  isRead := isRead
  same := by
    rw [copy, detach, rebind, Field.equal, Bool.and_eq_true]
    exact ⟨Attributes.equal_rebind_self wellFormed none, same⟩
  detached := by rw [detach, rebind, attributes.rebind_rebind, detached]
  uniform := uniform

theorem rebuilt_scalar {kind : Kind} (wellFormed : attributes.WellFormed)
    (isScalar : kind.isScalar = true) (numeric : HasNumericBounds ⟨attributes, kind⟩) :
    Rebuilt registry ⟨attributes, kind⟩ ⟨attributes.rebind none, kind⟩ := by
  have detached := Kind.rebind_of_isScalar isScalar none
  refine .ofKind wellFormed (readAs_scalar isScalar) ?_ detached ?_
  · rw [detached]
    exact Kind.equal_self_of_isScalar isScalar numeric
  · cases kind with
    | list flavor inner => contradiction
    | dict flavor inner => contradiction
    | _ => rfl

theorem rebuilt_untypedList {flavor : ListFlavor} (wellFormed : attributes.WellFormed) :
    Rebuilt registry ⟨attributes, .list flavor none⟩
      ⟨attributes.rebind none, .list flavor none⟩ :=
  .ofKind wellFormed (readAs_list rfl rfl) (decide_eq_true rfl) rfl rfl

theorem rebuilt_untypedDict {flavor : DictFlavor} (wellFormed : attributes.WellFormed) :
    Rebuilt registry ⟨attributes, .dict flavor none⟩
      ⟨attributes.rebind none, .dict flavor none⟩ :=
  .ofKind wellFormed (readAs_dict rfl rfl) (decide_eq_true rfl) rfl rfl

section Elements

variable {element rebuilt : Field}

theorem rebuilt_list {flavor : ListFlavor} (wellFormed : attributes.WellFormed)
    (named : element.name = attributes.name) (isRebuilt : Rebuilt registry element rebuilt) :
    Rebuilt registry ⟨attributes, .list flavor (some element)⟩
      ⟨attributes.rebind none, .list flavor (some rebuilt)⟩ := by
  have uniform : rebuilt.renamed attributes.name = rebuilt := named ▸ isRebuilt.uniform
  refine .ofKind wellFormed ?_ ?_ ?_ ?_
  · exact readAs_list (elementField_toRecord isRebuilt.isRead) (congrArg some uniform)
  · rw [Kind.rebind, Kind.equal, Bool.and_eq_true]
    exact ⟨decide_eq_true rfl, isRebuilt.same⟩
  · rw [Kind.rebind]
    exact congrArg (Kind.list flavor ∘ some) isRebuilt.detached
  · rw [renamed, uniform]
    rfl

theorem rebuilt_dict {flavor : DictFlavor} (wellFormed : attributes.WellFormed)
    (named : element.name = attributes.name) (isRebuilt : Rebuilt registry element rebuilt) :
    Rebuilt registry ⟨attributes, .dict flavor (some element)⟩
      ⟨attributes.rebind none, .dict flavor (some rebuilt)⟩ := by
  have uniform : rebuilt.renamed attributes.name = rebuilt := named ▸ isRebuilt.uniform
  refine .ofKind wellFormed ?_ ?_ ?_ ?_
  · exact readAs_dict (elementField_toRecord isRebuilt.isRead) (congrArg some uniform)
  · rw [Kind.rebind, Kind.equal, Bool.and_eq_true]
    exact ⟨decide_eq_true rfl, isRebuilt.same⟩
  · rw [Kind.rebind]
    exact congrArg (Kind.dict flavor ∘ some) isRebuilt.detached
  · rw [renamed, uniform]
    rfl

end Elements

end Field

/-! ## Documents -/

namespace Embedded

variable {registry : Registry} {nested : Embedded} {rebuilts : List Field}

theorem readAs_of_rebuilt
    (areRebuilt : nested.DeclaredAs (Field.Rebuilt registry) rebuilts) :
    nested.DeclaredAs (Field.ReadAs registry) rebuilts := by
  refine List.Forall₂.imp ?_ areRebuilt
  rintro name rebuilt ⟨field, isFound, isRebuilt⟩
  exact ⟨field, isFound, isRebuilt.isRead⟩

/-- What a rebuilt payload holds under a declared name is rebuilt from the field of that name. -/
theorem rebuiltAt_of_lookup_copies (consistent : nested.Consistent)
    (areRebuilt : nested.DeclaredAs (Field.Rebuilt registry) rebuilts) {name : String}
    {found : Field}
    (isFound : Mapping.lookup (Field.copies rebuilts).reverse name = some found) :
    RelatedAt (Field.Rebuilt registry) nested.fields name found := by
  obtain ⟨rebuilt, isGiven, rfl, rfl⟩ := Field.copy_of_lookup_copies isFound
  obtain ⟨index, inRange, rfl⟩ := List.getElem_of_mem isGiven
  have inDeclared : index < nested.declared.length := by
    rw [List.Forall₂.length_eq areRebuilt]
    exact inRange
  obtain ⟨field, wasFound, isRebuilt⟩ := List.Forall₂.get areRebuilt inDeclared inRange
  have named : rebuilts[index].name = nested.declared[index] := by
    refine isRebuilt.isRead.named.trans ?_
    exact consistent.declared _ (List.getElem_mem inDeclared) field wasFound
  rw [named]
  exact ⟨field, wasFound, show Field.Rebuilt registry field rebuilts[index].detach from
    isRebuilt.detached.symm ▸ isRebuilt⟩

/-- What a rebuilt payload holds under a name: the field rebuilt for it, or a detached default that
was there before. -/
theorem lookup_rebuild (consistent : nested.Consistent)
    (areRebuilt : nested.DeclaredAs (Field.Rebuilt registry) rebuilts) {name : String}
    {found : Field}
    (isFound : Mapping.lookup (nested.rebuild rebuilts).fields name = some found) :
    ∃ field, Mapping.lookup nested.fields name = some field ∧
      (Field.Rebuilt registry field found ∨ found = field.detach) := by
  have sameDisplaced := @displaced_rebuild nested rebuilts consistent
  rw [rebuild] at isFound sameDisplaced
  rw [lookup_build, sameDisplaced, Option.or_eq_some_iff] at isFound
  rcases isFound with isGiven | ⟨isNone, isKept⟩
  · obtain ⟨field, wasFound, isRebuilt⟩ :=
      rebuiltAt_of_lookup_copies consistent areRebuilt isGiven
    exact ⟨field, wasFound, .inl isRebuilt⟩
  · -- A name that is neither declared nor displaced has had its default all along.
    have isUndeclared : name ∉ nested.declared := by
      rw [← names_of_relatedAt (readAs_of_rebuilt areRebuilt) consistent.declared]
      exact (Field.lookup_copies_eq_none_iff rebuilts).mp isNone
    by_cases isDisplaced : name ∈ nested.displaced
    · rw [if_pos isDisplaced] at isKept
      contradiction
    · rw [if_neg isDisplaced] at isKept
      have isKey : name ∈ Mapping.keys nested.fields :=
        (consistent.names name).mpr (.inr ⟨Mapping.mem_keys_of_lookup isKept, isDisplaced⟩)
      obtain ⟨field, wasFound⟩ := Mapping.mem_keys_iff.mp isKey
      have isDefault := consistent.undeclared name isUndeclared field wasFound
      rw [isKept, Option.some.injEq] at isDefault
      exact ⟨field, wasFound, .inr isDefault⟩

theorem rebindEntries_of_detached {fields : List (String × Field)}
    (each : ∀ entry ∈ fields, entry.2.detach = entry.2) : rebindEntries none fields = fields := by
  induction fields with
  | nil => rfl
  | cons entry rest inductionHypothesis =>
      obtain ⟨name, field⟩ := entry
      rw [List.forall_mem_cons] at each
      rw [rebindEntries, inductionHypothesis each.2]
      exact congrArg (fun other => (name, other) :: rest) each.1

theorem rebind_rebuild (consistent : nested.Consistent)
    (areRebuilt : nested.DeclaredAs (Field.Rebuilt registry) rebuilts) :
    (nested.rebuild rebuilts).rebind none = nested.rebuild rebuilts := by
  have again : (nested.rebuild rebuilts).Consistent := consistent_rebuild consistent
  have detached : ∀ entry ∈ (nested.rebuild rebuilts).fields, entry.2.detach = entry.2 := by
    intro entry isEntry
    obtain ⟨field, _, isRebuilt | isDefault⟩ :=
      lookup_rebuild consistent areRebuilt (Mapping.lookup_of_mem again.distinct isEntry)
    · exact isRebuilt.detached
    · rw [isDefault]
      exact field.detach_rebind none
  have same := rebindEntries_of_detached detached
  unfold rebuild build at same ⊢
  rw [Embedded.rebind, same]

theorem equal_rebuild (coherent : nested.Coherent)
    (numeric : entriesEverywhere Field.HasNumericBounds nested.fields)
    (areRebuilt : nested.DeclaredAs (Field.Rebuilt registry) rebuilts) :
    (nested.rebuild rebuilts).equal (nested.rebind none) = true := by
  have consistent := coherent.consistent
  have again : (nested.rebuild rebuilts).Consistent := consistent_rebuild consistent
  have within : entriesWithin (nested.rebuild rebuilts).fields
      (rebindEntries none nested.fields) = true := by
    rw [entriesWithin_iff]
    intro entry isEntry
    obtain ⟨field, wasFound, isOne⟩ :=
      lookup_rebuild consistent areRebuilt (Mapping.lookup_of_mem again.distinct isEntry)
    refine ⟨field.rebind none, ?_, ?_⟩
    · rw [lookup_rebindEntries, wasFound]
      rfl
    · rcases isOne with isRebuilt | isDefault
      · exact isRebuilt.same
      · rw [isDefault]
        exact (coherent.each entry.1 field wasFound).equal_rebind_self
          (entriesEverywhere_iff.mp numeric _ (Mapping.mem_of_lookup wasFound)) none
  have length : (nested.rebuild rebuilts).fields.length = nested.fields.length := by
    have sameLength := (keys_rebuild_perm consistent (readAs_of_rebuilt areRebuilt)).length_eq
    rw [Mapping.keys, Mapping.keys, List.length_map, List.length_map] at sameLength
    exact sameLength
  exact equal_rebind none rfl coherent.unviewed rfl
    (declared_rebuild consistent (readAs_of_rebuilt areRebuilt)) (displaced_rebuild consistent)
    length within

end Embedded

namespace Field

variable {registry : Registry} {attributes : Attributes} {nested : Embedded}
variable {rebuilts : List Field}

theorem rebuilt_embedded (wellFormed : attributes.WellFormed) (coherent : nested.Coherent)
    (known : registry.resolve nested.documentType.name = .ok nested.documentType)
    (numeric : entriesEverywhere HasNumericBounds nested.fields)
    (areRebuilt : nested.DeclaredAs (Field.Rebuilt registry) rebuilts) :
    Rebuilt registry ⟨attributes, .embedded nested⟩
      ⟨attributes.rebind none, .embedded (nested.rebuild rebuilts)⟩ := by
  refine .ofKind wellFormed (readAs_embedded known
      (fieldsOf_recordEntries (Embedded.readAs_of_rebuilt areRebuilt)))
    (Embedded.equal_rebuild coherent numeric areRebuilt) ?_ rfl
  rw [Kind.rebind, Embedded.rebind_rebuild coherent.consistent areRebuilt]

/-- A coherent field is rebuilt from its record. -/
theorem Coherent.exists_rebuilt {field : Field} (coherent : field.Coherent)
    (known : field.Everywhere registry.Knows) (numeric : field.Everywhere HasNumericBounds) :
    ∃ rebuilt, Rebuilt registry field rebuilt := by
  induction coherent with
  | scalar wellFormed isScalar => exact ⟨_, rebuilt_scalar wellFormed isScalar numeric.here⟩
  | untypedList wellFormed fits => exact ⟨_, rebuilt_untypedList wellFormed⟩
  | list wellFormed fits named coherent inductionHypothesis =>
      obtain ⟨rebuilt, isRebuilt⟩ := inductionHypothesis (known.element rfl) (numeric.element rfl)
      exact ⟨_, rebuilt_list wellFormed named isRebuilt⟩
  | untypedDict flavor wellFormed => exact ⟨_, rebuilt_untypedDict wellFormed⟩
  | dict flavor wellFormed named coherent inductionHypothesis =>
      obtain ⟨rebuilt, isRebuilt⟩ := inductionHypothesis (known.element rfl) (numeric.element rfl)
      exact ⟨_, rebuilt_dict wellFormed named isRebuilt⟩
  | @embedded attributes nested wellFormed unviewed consistent each inductionHypothesis =>
      have eachDeclared : ∀ name ∈ nested.declared,
          ∃ rebuilt, RelatedAt (Field.Rebuilt registry) nested.fields name rebuilt := by
        intro name isDeclared
        obtain ⟨field, isFound⟩ :=
          Mapping.mem_keys_iff.mp ((consistent.names name).mpr (.inl isDeclared))
        have isEntry := Mapping.mem_of_lookup isFound
        obtain ⟨rebuilt, isRebuilt⟩ := inductionHypothesis name field isFound
          (known.member rfl isEntry) (numeric.member rfl isEntry)
        exact ⟨rebuilt, field, isFound, isRebuilt⟩
      obtain ⟨rebuilts, areRebuilt⟩ := exists_forall₂ eachDeclared
      have coherent : nested.Coherent := ⟨unviewed, consistent, each⟩
      have below : entriesEverywhere HasNumericBounds nested.fields :=
        entriesEverywhere_iff.mpr fun _ isEntry => numeric.member rfl isEntry
      exact ⟨_, rebuilt_embedded wellFormed coherent (known.here nested rfl) below areRebuilt⟩

/-- An assembled field is read from its record with success, as a field that equals its copy. -/
theorem Assembled.toField_toRecord {field : Field} (assembled : field.Assembled)
    (known : field.Everywhere registry.Knows) (numeric : field.Everywhere HasNumericBounds) :
    ∃ rebuilt, field.toRecord.toField registry = .ok rebuilt ∧
      rebuilt.equal field.copy = true := by
  obtain ⟨rebuilt, isRebuilt⟩ := assembled.coherent.exists_rebuilt known numeric
  exact ⟨rebuilt, isRebuilt.isRead, isRebuilt.same⟩

end Field

/-- Documents that have a first and a last frame. -/
def shotType : DocumentType :=
  ⟨"Shot", none, [("first", .int "first"), ("last", .int "last")]⟩

/-- Shots whose first frame was renamed and redeclared, and whose last frame was left out. -/
def shots : Field :=
  (Field.embeddedList "shots" shotType).modifyNested fun nested => nested.run
    [.declare none "shots.score" (.float "score"),
      .rename none "first" "shots.from" (.frameNumber "from"), .remove "last"]

theorem toField_toRecord_shots :
    (shots.Assembled ∧ shots.Everywhere (Registry.mk [("Shot", shotType)]).Knows ∧
        shots.Everywhere Field.HasNumericBounds) ∧
      ∃ rebuilt, shots.toRecord.toField ⟨[("Shot", shotType)]⟩ = .ok rebuilt ∧
        rebuilt.equal shots.copy = true := by
  have isShot : shotType.Assembled := by
    have built : DocumentType.build "Shot" none [.int "first", .int "last"] = .ok shotType := rfl
    refine .build built (fun _ isParent => nomatch isParent) ?_
    intro inner member
    rcases List.mem_pair.mp member with rfl | rfl
    · exact .scalar "first" rfl
    · exact .scalar "last" rfl
  have assembled : shots.Assembled := by
    refine .edited (.embeddedList "shots" isShot) ?_
    intro edit isEdit given isGiven
    simp only [List.mem_cons, List.not_mem_nil, or_false] at isEdit
    rcases isEdit with rfl | rfl | rfl
    · cases isGiven
      exact .scalar "score" rfl
    · cases isGiven
      exact .scalar "from" rfl
    · contradiction
  have known : shots.Everywhere (Registry.mk [("Shot", shotType)]).Knows := by
    refine ⟨?_, ?_, ⟨?_, trivial⟩, ⟨?_, trivial⟩, trivial⟩
    · intro nested isNested
      contradiction
    · intro nested isNested
      cases isNested
      rfl
    · intro nested isNested
      contradiction
    · intro nested isNested
      contradiction
  have numeric : shots.Everywhere Field.HasNumericBounds := by
    refine ⟨?_, ?_, ⟨?_, trivial⟩, ⟨?_, trivial⟩, trivial⟩
    · intro least greatest isFloat
      contradiction
    · intro least greatest isFloat
      contradiction
    · intro least greatest isFloat
      cases isFloat
      exact ⟨fun _ isBound => absurd isBound nofun, fun _ isBound => absurd isBound nofun⟩
    · intro least greatest isFloat
      contradiction
  exact ⟨⟨assembled, known, numeric⟩, assembled.toField_toRecord known numeric⟩

end SchemaTree
