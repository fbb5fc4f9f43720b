import SchemaTree.Field.Constructors
import SchemaTree.Proofs.Embedded.Edits
import SchemaTree.Proofs.Json

/-!
Where fields come from: the named constructors, the setters of metadata, attachment and runs of
edits, over document types that were built from such fields.  Fields of this provenance are
coherent at every depth: elements have the name of their container, lists of a special flavor the
element of that flavor, and embedded documents consistent mappings without a view.
-/

namespace SchemaTree

/-- Whether fields of a kind never have fields inside. -/
def Kind.isScalar : Kind → Bool
  | .list _ _ | .dict _ _ | .embedded _ => false
  | _ => true

mutual

/-- Fields that constructors, setters, attachment and edits can make. -/
inductive Field.Assembled : Field → Prop
  | scalar (name : String) {kind : Kind} (isScalar : kind.isScalar = true) :
      Field.Assembled (.ofKind name kind)
  | list (name : String) {element : Option Field}
      (assembled : ∀ inner, element = some inner → Field.Assembled inner) :
      Field.Assembled (.list name element)
  | heatmapRange (name : String) : Field.Assembled (.heatmapRange name)
  | keypoints (name : String) : Field.Assembled (.keypoints name)
  | polylinePoints (name : String) : Field.Assembled (.polylinePoints name)
  | frameSupport (name : String) : Field.Assembled (.frameSupport name)
  | classes (name : String) : Field.Assembled (.classes name)
  | embeddedList (name : String) {type : DocumentType} (assembled : type.Assembled) :
      Field.Assembled (.embeddedList name type)
  | dict (name : String) {element : Option Field}
      (assembled : ∀ inner, element = some inner → Field.Assembled inner) :
      Field.Assembled (.dict name element)
  | intDict (name : String) {element : Option Field}
      (assembled : ∀ inner, element = some inner → Field.Assembled inner) :
      Field.Assembled (.intDict name element)
  | targets (name : String) : Field.Assembled (.targets name)
  | embedded (name : String) {type : DocumentType} (assembled : type.Assembled) :
      Field.Assembled (.embedded name type)
  | embeddedWith (name : String) {type : DocumentType} (assembled : type.Assembled)
      {fields : List Field} (each : ∀ field ∈ fields, Field.Assembled field)
      (displaced : List String) : Field.Assembled (.embeddedWith name type fields displaced)
  | renamed {field : Field} (assembled : Field.Assembled field) (newName : String) :
      Field.Assembled (field.renamed newName)
  | setDescription {field : Field} (assembled : Field.Assembled field)
      (description : Option String) : Field.Assembled (field.setDescription description)
  | setInfo {field : Field} (assembled : Field.Assembled field)
      {info : Option (List (String × Json))}
      (wellFormed : ∀ members, info = some members → (Json.object members).WellFormed) :
      Field.Assembled (field.setInfo info)
  | setRequired {field : Field} (assembled : Field.Assembled field) (required : Bool) :
      Field.Assembled (field.setRequired required)
  | setNullable {field : Field} (assembled : Field.Assembled field) (nullable : Bool) :
      Field.Assembled (field.setNullable nullable)
  | withExpression {field : Field} (assembled : Field.Assembled field) {source : Json}
      (wellFormed : source.WellFormed) : Field.Assembled (field.withExpression source)
  | rebind {field : Field} (assembled : Field.Assembled field) (binding : Option Binding) :
      Field.Assembled (field.rebind binding)
  | edited {field : Field} (assembled : Field.Assembled field) {edits : List Edit}
      (each : ∀ edit ∈ edits, ∀ given, edit.field? = some given → Field.Assembled given) :
      Field.Assembled (field.modifyNested fun nested => nested.run edits)

/-- Document types that are built from assembled fields, over parents that are built so. -/
inductive DocumentType.Assembled : DocumentType → Prop
  | build {name : String} {parent : Option DocumentType} {own : List Field} {type : DocumentType}
      (built : DocumentType.build name parent own = .ok type)
      (parents : ∀ outer, parent = some outer → DocumentType.Assembled outer)
      (each : ∀ field ∈ own, Field.Assembled field) : DocumentType.Assembled type

end

/-- The data in attributes are data that JSON can hold. -/
structure Attributes.WellFormed (attributes : Attributes) : Prop where
  info : ∀ members, attributes.info = some members → (Json.object members).WellFormed
  expression : ∀ expression, attributes.expression = some expression →
    expression.source.WellFormed

/-- The elements that lists of a flavor have. -/
def ListFlavor.Fits : ListFlavor → Option Field → Prop
  | .heatmapRange, some ⟨_, .float _ _⟩ => True
  | .frameSupport, some ⟨_, .int⟩ => True
  | .keypoints, none | .polylinePoints, none => True
  | .plain, _ | .classes, _ | .embeddedDocuments, _ => True
  | _, _ => False

/-- Fields that are as their constructors leave them, at every depth. -/
inductive Field.Coherent : Field → Prop
  | scalar {attributes : Attributes} {kind : Kind} (wellFormed : attributes.WellFormed)
      (isScalar : kind.isScalar = true) : Coherent ⟨attributes, kind⟩
  | untypedList {attributes : Attributes} {flavor : ListFlavor}
      (wellFormed : attributes.WellFormed) (fits : flavor.Fits none) :
      Coherent ⟨attributes, .list flavor none⟩
  | list {attributes : Attributes} {flavor : ListFlavor} {element : Field}
      (wellFormed : attributes.WellFormed) (fits : flavor.Fits (some element))
      (named : element.name = attributes.name) (coherent : Coherent element) :
      Coherent ⟨attributes, .list flavor (some element)⟩
  | untypedDict {attributes : Attributes} (flavor : DictFlavor)
      (wellFormed : attributes.WellFormed) : Coherent ⟨attributes, .dict flavor none⟩
  | dict {attributes : Attributes} (flavor : DictFlavor) {element : Field}
      (wellFormed : attributes.WellFormed) (named : element.name = attributes.name)
      (coherent : Coherent element) : Coherent ⟨attributes, .dict flavor (some element)⟩
  | embedded {attributes : Attributes} {nested : Embedded} (wellFormed : attributes.WellFormed)
      (unviewed : nested.view = none) (consistent : nested.Consistent)
      (each : ∀ name field, Mapping.lookup nested.fields name = some field → Coherent field) :
      Coherent ⟨attributes, .embedded nested⟩

namespace Field.Coherent

variable {field : Field}

theorem wellFormed (coherent : field.Coherent) : field.attributes.WellFormed := by
  cases coherent <;> assumption

theorem withAttributes {attributes changed : Attributes} {kind : Kind}
    (coherent : Coherent ⟨attributes, kind⟩) (named : changed.name = attributes.name)
    (wellFormed : changed.WellFormed) : Coherent ⟨changed, kind⟩ := by
  cases coherent with
  | scalar _ isScalar => exact .scalar wellFormed isScalar
  | untypedList _ fits => exact .untypedList wellFormed fits
  | list _ fits sameName inner => exact .list wellFormed fits (sameName.trans named.symm) inner
  | untypedDict flavor _ => exact .untypedDict flavor wellFormed
  | dict flavor _ sameName inner => exact .dict flavor wellFormed (sameName.trans named.symm) inner
  | embedded _ unviewed consistent each => exact .embedded wellFormed unviewed consistent each

theorem modifyAttributes (coherent : field.Coherent) {change : Attributes → Attributes}
    (named : (change field.attributes).name = field.name)
    (wellFormed : (change field.attributes).WellFormed) :
    (field.modifyAttributes change).Coherent := by
  obtain ⟨attributes, kind⟩ := field
  exact coherent.withAttributes named wellFormed

end Field.Coherent

/-! ## Setters -/

namespace Field.Coherent

variable {field : Field}

theorem setDescription (coherent : field.Coherent) (description : Option String) :
    (field.setDescription description).Coherent :=
  coherent.modifyAttributes rfl ⟨coherent.wellFormed.info, coherent.wellFormed.expression⟩

theorem setInfo (coherent : field.Coherent) {info : Option (List (String × Json))}
    (wellFormed : ∀ members, info = some members → (Json.object members).WellFormed) :
    (field.setInfo info).Coherent :=
  coherent.modifyAttributes rfl ⟨wellFormed, coherent.wellFormed.expression⟩

theorem setRequired (coherent : field.Coherent) (required : Bool) :
    (field.setRequired required).Coherent :=
  coherent.modifyAttributes rfl ⟨coherent.wellFormed.info, coherent.wellFormed.expression⟩

theorem setNullable (coherent : field.Coherent) (nullable : Bool) :
    (field.setNullable nullable).Coherent :=
  coherent.modifyAttributes rfl ⟨coherent.wellFormed.info, coherent.wellFormed.expression⟩

theorem withExpression (coherent : field.Coherent) {source : Json}
    (wellFormed : source.WellFormed) : (field.withExpression source).Coherent := by
  refine coherent.modifyAttributes rfl ⟨coherent.wellFormed.info, ?_⟩
  intro expression isExpression
  rw [← Option.some.inj isExpression]
  exact wellFormed

end Field.Coherent

/-! ## Attachment and renaming -/

theorem Attributes.WellFormed.rebind {attributes : Attributes} (wellFormed : attributes.WellFormed)
    (binding : Option Binding) : (attributes.rebind binding).WellFormed := by
  refine ⟨wellFormed.info, ?_⟩
  intro expression isExpression
  obtain ⟨compiled, isCompiled, rfl⟩ := Option.map_eq_some_iff.mp isExpression
  exact wellFormed.expression compiled isCompiled

theorem Kind.rebind_of_isScalar {kind : Kind} (isScalar : kind.isScalar = true)
    (binding : Option Binding) : kind.rebind binding = kind := by
  cases kind with
  | list flavor element => contradiction
  | dict flavor element => contradiction
  | embedded nested => contradiction
  | _ => rfl

theorem ListFlavor.fits_rebind {flavor : ListFlavor} {element : Field}
    (fits : flavor.Fits (some element)) (binding : Option Binding) :
    flavor.Fits (some (element.rebind binding)) := by
  obtain ⟨attributes, kind⟩ := element
  cases flavor <;> cases kind <;> trivial

theorem ListFlavor.fits_renamed {flavor : ListFlavor} {element : Field}
    (fits : flavor.Fits (some element)) (newName : String) :
    flavor.Fits (some (element.renamed newName)) := by
  obtain ⟨attributes, kind⟩ := element
  cases flavor <;> cases kind <;> trivial

theorem Embedded.Consistent.rebind {nested : Embedded} (consistent : nested.Consistent)
    (binding : Option Binding) : (nested.rebind binding).Consistent := by
  obtain ⟨type, declared, displaced, fields, view⟩ := nested
  refine ⟨consistent.type, ?_, consistent.displaced, ?_, ?_, ?_⟩
  · exact keys_rebindEntries binding fields ▸ consistent.distinct
  · intro name
    rw [Embedded.rebind, keys_rebindEntries]
    exact consistent.names name
  · intro name isDeclared found isFound
    rw [Embedded.rebind, lookup_rebindEntries] at isFound
    obtain ⟨before, wasFound, rfl⟩ := Option.map_eq_some_iff.mp isFound
    exact (before.name_rebind _).trans (consistent.declared name isDeclared before wasFound)
  · intro name isUndeclared found isFound
    rw [Embedded.rebind, lookup_rebindEntries] at isFound
    obtain ⟨before, wasFound, rfl⟩ := Option.map_eq_some_iff.mp isFound
    rw [before.detach_rebind]
    exact consistent.undeclared name isUndeclared before wasFound

theorem Field.Coherent.rebind {field : Field} (coherent : field.Coherent)
    (binding : Option Binding) : (field.rebind binding).Coherent := by
  induction coherent generalizing binding with
  | scalar wellFormed isScalar =>
      rw [Field.rebind, Kind.rebind_of_isScalar isScalar]
      exact .scalar (wellFormed.rebind binding) isScalar
  | untypedList wellFormed fits => exact .untypedList (wellFormed.rebind binding) fits
  | @list attributes flavor element wellFormed fits named _ inductionHypothesis =>
      exact .list (wellFormed.rebind binding) (ListFlavor.fits_rebind fits binding)
        ((element.name_rebind binding).trans named) (inductionHypothesis binding)
  | untypedDict flavor wellFormed => exact .untypedDict flavor (wellFormed.rebind binding)
  | @dict attributes flavor element wellFormed named _ inductionHypothesis =>
      exact .dict flavor (wellFormed.rebind binding)
        ((element.name_rebind binding).trans named) (inductionHypothesis binding)
  | @embedded attributes nested wellFormed unviewed consistent _ inductionHypothesis =>
      obtain ⟨type, declared, displaced, fields, view⟩ := nested
      refine .embedded (wellFormed.rebind binding) unviewed (consistent.rebind binding) ?_
      intro name found isFound
      rw [Embedded.rebind, lookup_rebindEntries] at isFound
      obtain ⟨before, wasFound, rfl⟩ := Option.map_eq_some_iff.mp isFound
      exact inductionHypothesis name before wasFound _

theorem Field.name_renamed (field : Field) (newName : String) :
    (field.renamed newName).name = newName := by
  obtain ⟨attributes, kind⟩ := field
  cases kind with
  | list flavor element => cases element <;> rfl
  | dict flavor element => cases element <;> rfl
  | _ => rfl

theorem Attributes.WellFormed.renamed {attributes : Attributes}
    (wellFormed : attributes.WellFormed) (newName : String) :
    Attributes.WellFormed { attributes with name := newName } :=
  ⟨wellFormed.info, wellFormed.expression⟩

theorem Field.Coherent.renamed {field : Field} (coherent : field.Coherent) (newName : String) :
    (field.renamed newName).Coherent := by
  induction coherent with
  | @scalar attributes kind wellFormed isScalar =>
      have changed : Field.renamed newName ⟨attributes, kind⟩ =
          ⟨{ attributes with name := newName }, kind⟩ := by
        cases kind with
        | list flavor element => contradiction
        | dict flavor element => contradiction
        | _ => rfl
      rw [changed]
      exact .scalar (wellFormed.renamed newName) isScalar
  | untypedList wellFormed fits => exact .untypedList (wellFormed.renamed newName) fits
  | @list attributes flavor element wellFormed fits named _ inductionHypothesis =>
      exact .list (wellFormed.renamed newName) (ListFlavor.fits_renamed fits newName)
        (element.name_renamed newName) inductionHypothesis
  | untypedDict flavor wellFormed => exact .untypedDict flavor (wellFormed.renamed newName)
  | @dict attributes flavor element wellFormed named _ inductionHypothesis =>
      exact .dict flavor (wellFormed.renamed newName) (element.name_renamed newName)
        inductionHypothesis
  | embedded wellFormed unviewed consistent each =>
      exact .embedded (wellFormed.renamed newName) unviewed consistent each

/-! ## Payloads -/

/-- Payloads as constructors and edits leave them. -/
structure Embedded.Coherent (nested : Embedded) : Prop where
  unviewed : nested.view = none
  consistent : nested.Consistent
  each : ∀ name field, Mapping.lookup nested.fields name = some field → field.Coherent

/-- Document types with coherent defaults. -/
structure DocumentType.Coherent (type : DocumentType) : Prop where
  consistent : type.Consistent
  each : ∀ name field, Mapping.lookup type.fields name = some field → field.Coherent

namespace Embedded.Coherent

theorem build {type : DocumentType} (coherent : type.Coherent) {fields : List Field}
    (each : ∀ field ∈ fields, field.Coherent) (displaced : List String) :
    (Embedded.build type fields displaced).Coherent := by
  refine ⟨rfl, consistent_build fields displaced coherent.consistent, ?_⟩
  intro name found isFound
  rw [lookup_build, Option.or_eq_some_iff] at isFound
  rcases isFound with isGiven | ⟨_, isKept⟩
  · obtain ⟨field, member, _, rfl⟩ := Field.copy_of_lookup_copies isGiven
    exact (each field member).rebind none
  · by_cases isDisplaced : name ∈ (Embedded.build type fields displaced).displaced
    · rw [if_pos isDisplaced] at isKept
      contradiction
    · rw [if_neg isDisplaced] at isKept
      exact coherent.each name found isKept

theorem apply {nested : Embedded} (coherent : nested.Coherent) {edit : Edit}
    (each : ∀ given, edit.field? = some given → given.Coherent) :
    (nested.apply edit).Coherent := by
  refine ⟨(nested.view_apply edit).trans coherent.unviewed, coherent.consistent.apply edit, ?_⟩
  intro name found isFound
  rcases found_of_apply isFound with before | ⟨field, isGiven, previous, dataset, path, rfl⟩
  · exact coherent.each name found before
  · apply Field.Coherent.rebind
    cases previous with
    | none => exact each field isGiven
    | some replaced => exact ((each field isGiven).setRequired _).setNullable _

theorem run {nested : Embedded} (coherent : nested.Coherent) {edits : List Edit}
    (each : ∀ edit ∈ edits, ∀ given, edit.field? = some given → given.Coherent) :
    (nested.run edits).Coherent := by
  unfold Embedded.run
  induction edits generalizing nested with
  | nil => exact coherent
  | cons edit rest inductionHypothesis =>
      apply inductionHypothesis (coherent.apply (each edit List.mem_cons_self))
      intro other inRest
      exact each other (List.mem_cons_of_mem _ inRest)

end Embedded.Coherent

theorem DocumentType.Coherent.build {name : String} {parent : Option DocumentType}
    {own : List Field} {type : DocumentType} (built : DocumentType.build name parent own = .ok type)
    (parents : ∀ outer, parent = some outer → outer.Coherent)
    (each : ∀ field ∈ own, field.Coherent) : type.Coherent := by
  refine ⟨consistent_of_build built fun outer isParent => (parents outer isParent).consistent, ?_⟩
  intro key found isFound
  rw [build_eq_ok built, Mapping.lookup_extend, Option.or_eq_some_iff] at isFound
  rcases isFound with isOwn | ⟨_, isInherited⟩
  · obtain ⟨field, member, _, rfl⟩ := Field.copy_of_lookup_copies isOwn
    exact (each field member).rebind none
  · cases parent with
    | none => contradiction
    | some outer => exact (parents outer rfl).each key found isInherited

/-! ## Provenance -/

namespace Field.Coherent

theorem wellFormed_plain (name : String) :
    Attributes.WellFormed ⟨name, none, none, false, true, none, none⟩ := by
  constructor
  · intro members isSome
    contradiction
  · intro expression isSome
    contradiction

theorem ofScalar (name : String) {kind : Kind} (isScalar : kind.isScalar = true) :
    (ofKind name kind).Coherent :=
  .scalar (wellFormed_plain name) isScalar

theorem listOf (name : String) {flavor : ListFlavor} {element : Option Field}
    (fits : flavor.Fits (element.map (Field.renamed name)))
    (coherent : ∀ inner, element = some inner → inner.Coherent) :
    (Field.listOf name flavor element).Coherent := by
  cases element with
  | none => exact .untypedList (wellFormed_plain name) fits
  | some inner =>
      exact .list (wellFormed_plain name) fits (inner.name_renamed name)
        ((coherent inner rfl).renamed name)

theorem dictOf (name : String) (flavor : DictFlavor) {element : Option Field}
    (coherent : ∀ inner, element = some inner → inner.Coherent) :
    (Field.dictOf name flavor element).Coherent := by
  cases element with
  | none => exact .untypedDict flavor (wellFormed_plain name)
  | some inner =>
      exact .dict flavor (wellFormed_plain name) (inner.name_renamed name)
        ((coherent inner rfl).renamed name)

theorem ofNested (name : String) {nested : Embedded} (coherent : nested.Coherent) :
    (ofKind name (.embedded nested)).Coherent :=
  .embedded (wellFormed_plain name) coherent.unviewed coherent.consistent coherent.each

theorem payload {attributes : Attributes} {nested : Embedded}
    (coherent : Field.Coherent ⟨attributes, .embedded nested⟩) : nested.Coherent := by
  cases coherent with
  | scalar _ isScalar => contradiction
  | embedded _ unviewed consistent each => exact ⟨unviewed, consistent, each⟩

theorem withPayload {attributes : Attributes} {nested changed : Embedded}
    (coherent : Field.Coherent ⟨attributes, .embedded nested⟩) (payload : changed.Coherent) :
    Field.Coherent ⟨attributes, .embedded changed⟩ :=
  .embedded coherent.wellFormed payload.unviewed payload.consistent payload.each

theorem modifyNested {field : Field} (coherent : field.Coherent) {change : Embedded → Embedded}
    (keeps : ∀ nested : Embedded, nested.Coherent → (change nested).Coherent) :
    (field.modifyNested change).Coherent := by
  cases coherent with
  | @scalar attributes kind wellFormed isScalar =>
      cases kind with
      | list flavor element => contradiction
      | dict flavor element => contradiction
      | embedded nested => contradiction
      | _ => exact .scalar wellFormed isScalar
  | untypedList wellFormed fits => exact .untypedList wellFormed fits
  | @list attributes flavor element wellFormed fits named inner =>
      obtain ⟨innerAttributes, kind⟩ := element
      cases kind with
      | embedded nested =>
          refine .list wellFormed ?_ named (inner.withPayload (keeps nested inner.payload))
          cases flavor <;> exact fits
      | _ => exact .list wellFormed fits named inner
  | untypedDict flavor wellFormed => exact .untypedDict flavor wellFormed
  | @dict attributes flavor element wellFormed named inner =>
      obtain ⟨innerAttributes, kind⟩ := element
      cases kind with
      | embedded nested =>
          exact .dict flavor wellFormed named (inner.withPayload (keeps nested inner.payload))
      | _ => exact .dict flavor wellFormed named inner
  | embedded wellFormed unviewed consistent each =>
      have changed := keeps _ ⟨unviewed, consistent, each⟩
      exact .embedded wellFormed changed.unviewed changed.consistent changed.each

end Field.Coherent

mutual

theorem Field.Assembled.coherent : {field : Field} → field.Assembled → field.Coherent
  | _, .scalar name isScalar => .ofScalar name isScalar
  | _, .list name assembled =>
      .listOf name trivial fun inner same => (assembled inner same).coherent
  | _, .heatmapRange name => .listOf name trivial fun inner same => by
      cases same
      exact .ofScalar name rfl
  | _, .keypoints name => .listOf name trivial fun inner same => nomatch same
  | _, .polylinePoints name => .listOf name trivial fun inner same => nomatch same
  | _, .frameSupport name => .listOf name trivial fun inner same => by
      cases same
      exact .ofScalar name rfl
  | _, .classes name => .listOf name trivial fun inner same => by
      cases same
      exact .ofScalar name rfl
  | _, .embeddedList name assembled => .listOf name trivial fun inner same => by
      cases same
      exact .ofNested name
        (.build assembled.coherent (fun _ member => absurd member List.not_mem_nil) [])
  | _, .dict name assembled => .dictOf name .plain fun inner same => (assembled inner same).coherent
  | _, .intDict name assembled =>
      .dictOf name .intKeys fun inner same => (assembled inner same).coherent
  | _, .targets name => .dictOf name .targets fun inner same => by
      cases same
      exact .ofScalar name rfl
  | _, .embedded name assembled =>
      .ofNested name (.build assembled.coherent (fun _ member => absurd member List.not_mem_nil) [])
  | _, .embeddedWith name assembled each displaced =>
      .ofNested name (.build assembled.coherent (fun field member => (each field member).coherent)
        displaced)
  | _, .renamed assembled newName => assembled.coherent.renamed newName
  | _, .setDescription assembled description => assembled.coherent.setDescription description
  | _, .setInfo assembled wellFormed => assembled.coherent.setInfo wellFormed
  | _, .setRequired assembled required => assembled.coherent.setRequired required
  | _, .setNullable assembled nullable => assembled.coherent.setNullable nullable
  | _, .withExpression assembled wellFormed => assembled.coherent.withExpression wellFormed
  | _, .rebind assembled binding => assembled.coherent.rebind binding
  | _, .edited assembled each => assembled.coherent.modifyNested fun _ coherent =>
      coherent.run fun edit member given isGiven => (each edit member given isGiven).coherent

theorem DocumentType.Assembled.coherent :
    {type : DocumentType} → type.Assembled → type.Coherent
  | _, .build built parents each =>
      .build built (fun outer isParent => (parents outer isParent).coherent)
        fun field member => (each field member).coherent

end

end SchemaTree
