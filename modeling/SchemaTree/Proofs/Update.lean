import SchemaTree.Field.Constructors
import SchemaTree.Proofs.Field.Deep
import SchemaTree.Proofs.Flatten

/-!
Updates at dotted paths.  While no view is installed, an update reaches the field that a look-up
finds, and a look-up that ends neither there nor on the way there finds what it found before.  What
is said about a field is seen by no path and by no constraint, so that a schema keeps its flat paths
when it is said anew.
-/

namespace SchemaTree

/-- Whether no view is installed on the document of a field. -/
def Field.Unviewed (field : Field) : Prop :=
  ∀ nested, field.embedded? = some nested → nested.view = none

/-- Whether no view is installed at any depth of a schema. -/
def Schema.Unviewed (schema : Schema) : Prop :=
  entriesEverywhere Field.Unviewed schema

/-- What is said about a field, whatever it holds and wherever it lives. -/
inductive Remark where
  | description (description : Option String)
  | info (info : Option (List (String × Json)))
  | required (required : Bool)
  | nullable (nullable : Bool)

def Field.withRemark (field : Field) : Remark → Field
  | .description description => field.setDescription description
  | .info info => field.setInfo info
  | .required required => field.setRequired required
  | .nullable nullable => field.setNullable nullable

def Field.withRemarks (remarks : List Remark) (field : Field) : Field :=
  remarks.foldl Field.withRemark field

/-- A change of fields that neither the paths below them nor constraints see. -/
structure Field.Unseen (change : Field → Field) : Prop where
  nested?_eq : ∀ field, (change field).nested? = field.nested?
  isMetBy_eq : ∀ (constraints : Constraints) field,
    constraints.isMetBy (change field) = constraints.isMetBy field

theorem Field.unseen_withRemark (remark : Remark) :
    Unseen fun field => field.withRemark remark := by
  cases remark <;> exact ⟨fun _ => rfl, fun _ _ => rfl⟩

theorem Field.unseen_withRemarks (remarks : List Remark) :
    Unseen (withRemarks remarks) := by
  induction remarks with
  | nil => exact ⟨fun _ => rfl, fun _ _ => rfl⟩
  | cons remark rest inductionHypothesis =>
      have first := unseen_withRemark remark
      exact ⟨fun field => (inductionHypothesis.nested?_eq _).trans (first.nested?_eq field),
        fun constraints field => (inductionHypothesis.isMetBy_eq constraints _).trans
          (first.isMetBy_eq constraints field)⟩

/-! ## Look-ups below a field -/

namespace Field

variable {field : Field} {nested : Embedded} {change : Field → Field} {names : List String}

theorem Holds.view_eq_none (holds : field.Holds nested) (unviewed : field.Everywhere Unviewed) :
    nested.view = none := by
  cases holds with
  | document => exact unviewed.here nested rfl
  | list => exact (unviewed.element rfl).here nested rfl
  | dict => exact (unviewed.element rfl).here nested rfl

/-- Without a view, a look-up follows the effective fields. -/
theorem Holds.descend?_cons (holds : field.Holds nested) (noView : nested.view = none)
    (name : String) (rest : List String) :
    field.descend? (name :: rest) =
      (Mapping.lookup nested.fields name).bind (descend? rest) := by
  rw [descend?, nested?_eq_some_iff.mpr holds, Option.bind_some, Embedded.get?, noView]
  rfl

theorem updateBelow_cons_of_nested?_eq_none (isPlain : field.nested? = none)
    (change : Field → Field) (name : String) (rest : List String) :
    field.updateBelow change (name :: rest) = field :=
  modifyNested_of_nested?_eq_none isPlain _

theorem descend?_eq_effective? (unviewed : field.Everywhere Unviewed) (names : List String) :
    field.descend? names = field.effective? names := by
  induction names generalizing field with
  | nil => rfl
  | cons name rest inductionHypothesis =>
      cases isNested : field.nested? with
      | none => simp [descend?, effective?_cons, isNested]
      | some nested =>
          have holds := nested?_eq_some_iff.mp isNested
          rw [holds.descend?_cons (holds.view_eq_none unviewed), effective?_cons, isNested,
            Option.bind_some]
          cases isMember : Mapping.lookup nested.fields name with
          | none => rfl
          | some member =>
              exact inductionHypothesis (unviewed.below holds (Mapping.mem_of_lookup isMember))

/-- On the way to what is changed, a look-up finds the field with the change below it. -/
theorem descend?_updateBelow_append (unviewed : field.Everywhere Unviewed)
    (change : Field → Field) (names rest : List String) :
    (field.updateBelow change (names ++ rest)).descend? names =
      (field.descend? names).map (updateBelow change rest) := by
  induction names generalizing field with
  | nil => rfl
  | cons name names inductionHypothesis =>
      cases isNested : field.nested? with
      | none =>
          rw [List.cons_append, updateBelow_cons_of_nested?_eq_none isNested, descend?, isNested]
          rfl
      | some nested =>
          have holds := nested?_eq_some_iff.mp isNested
          have noView := holds.view_eq_none unviewed
          rw [List.cons_append, updateBelow, (holds.modifyNested _).descend?_cons noView,
            holds.descend?_cons noView, Mapping.lookup_adjust, if_pos rfl]
          cases isMember : Mapping.lookup nested.fields name with
          | none => rfl
          | some member =>
              exact inductionHypothesis (unviewed.below holds (Mapping.mem_of_lookup isMember))

/-- Off the way to what is changed, a look-up finds what it found before. -/
theorem descend?_updateBelow_of_not_prefix (unseen : Unseen change)
    (unviewed : field.Everywhere Unviewed) {others : List String} (apart : ¬ others <+: names) :
    (field.updateBelow change names).descend? others = field.descend? others := by
  induction names generalizing field others with
  | nil =>
      cases others with
      | nil => exact absurd (List.prefix_refl []) apart
      | cons other below => rw [updateBelow, descend?, descend?, unseen.nested?_eq]
  | cons name rest inductionHypothesis =>
      cases others with
      | nil => exact absurd List.nil_prefix apart
      | cons other below =>
          cases isNested : field.nested? with
          | none => rw [updateBelow_cons_of_nested?_eq_none isNested]
          | some nested =>
              have holds := nested?_eq_some_iff.mp isNested
              have noView := holds.view_eq_none unviewed
              rw [updateBelow, (holds.modifyNested _).descend?_cons noView,
                holds.descend?_cons noView, Mapping.lookup_adjust]
              by_cases same : name = other
              · subst same
                have apartBelow : ¬ below <+: rest := fun isPrefix =>
                  apart (List.cons_prefix_cons.mpr ⟨rfl, isPrefix⟩)
                rw [if_pos rfl]
                cases isMember : Mapping.lookup nested.fields name with
                | none => rfl
                | some member =>
                    have isEntry := Mapping.mem_of_lookup isMember
                    exact inductionHypothesis (unviewed.below holds isEntry) apartBelow
              · rw [if_neg same]

/-! ## What constraints see below a field -/

section Outcomes

variable {showPrivate : Bool}

/-- The rows of names that a field shows below it, each with whether the field that it leads to
matches. -/
def outcomes (constraints : Constraints) (showPrivate : Bool) (field : Field) :
    List (List String × Bool) :=
  (field.shownBelow showPrivate).map (Prod.map id constraints.isMetBy)

theorem map_rowsFrom (constraints : Constraints) (showPrivate : Bool) (entry : String × Field) :
    (rowsFrom showPrivate entry).map (Prod.map id constraints.isMetBy) =
      ([entry.1], constraints.isMetBy entry.2) ::
        (entry.2.outcomes constraints showPrivate).map fun row => (entry.1 :: row.1, row.2) := by
  simp [rowsFrom, outcomes, Function.comp_def]

theorem isMetBy_modifyNested (constraints : Constraints) {change : Embedded → Embedded}
    (keeps : ∀ nested, (change nested).documentType = nested.documentType) (field : Field) :
    constraints.isMetBy (field.modifyNested change) = constraints.isMetBy field := by
  cases isNested : field.nested? with
  | none => rw [modifyNested_of_nested?_eq_none isNested]
  | some nested =>
      cases nested?_eq_some_iff.mp isNested with
      | document =>
          simp only [modifyNested, Constraints.isMetBy, embedded?, keeps]
          rfl
      | list => rfl
      | dict => rfl

theorem Unseen.isMetBy_updateBelow (unseen : Unseen change) (constraints : Constraints)
    (names : List String) (field : Field) :
    constraints.isMetBy (field.updateBelow change names) = constraints.isMetBy field := by
  cases names with
  | nil => exact unseen.isMetBy_eq constraints field
  | cons name rest =>
      apply isMetBy_modifyNested
      intro nested
      rfl

theorem outcomes_congr {other : Field} (same : field.nested? = other.nested?)
    (constraints : Constraints) :
    field.outcomes constraints showPrivate = other.outcomes constraints showPrivate := by
  unfold outcomes
  cases isNested : other.nested? with
  | none =>
      rw [shownBelow_of_nested?_eq_none isNested,
        shownBelow_of_nested?_eq_none (same.trans isNested)]
  | some nested =>
      rw [(nested?_eq_some_iff.mp isNested).shownBelow_eq,
        (nested?_eq_some_iff.mp (same.trans isNested)).shownBelow_eq]

theorem Holds.outcomes_eq (holds : field.Holds nested) (noView : nested.view = none)
    (constraints : Constraints) (showPrivate : Bool) :
    field.outcomes constraints showPrivate =
      (nested.fields.filter fun entry => Embedded.isVisible none showPrivate entry.1).flatMap
        fun entry => (rowsFrom showPrivate entry).map (Prod.map id constraints.isMetBy) := by
  have shown : nested.visible showPrivate =
      nested.fields.filter fun entry => Embedded.isVisible none showPrivate entry.1 := by
    unfold Embedded.visible Embedded.visibleIn
    rw [noView]
  rw [outcomes, holds.shownBelow_eq, List.map_flatMap, shown]

/-- An unseen change leaves the rows below a field as they are, wherever it is made. -/
theorem Unseen.outcomes_updateBelow (unseen : Unseen change) (unviewed : field.Everywhere Unviewed)
    (constraints : Constraints) (showPrivate : Bool) (names : List String) :
    (field.updateBelow change names).outcomes constraints showPrivate =
      field.outcomes constraints showPrivate := by
  induction names generalizing field with
  | nil => exact outcomes_congr (unseen.nested?_eq field) constraints
  | cons name rest inductionHypothesis =>
      cases isNested : field.nested? with
      | none => rw [updateBelow_cons_of_nested?_eq_none isNested]
      | some nested =>
          have holds := nested?_eq_some_iff.mp isNested
          have noView := holds.view_eq_none unviewed
          rw [updateBelow, (holds.modifyNested _).outcomes_eq noView, holds.outcomes_eq noView]
          apply Mapping.flatMap_filter_adjust
          intro member isEntry
          rw [map_rowsFrom, map_rowsFrom, unseen.isMetBy_updateBelow,
            inductionHypothesis (unviewed.below holds isEntry)]

end Outcomes

end Field

/-! ## Schemas -/

namespace Schema

variable {schema : Schema}

/-- A document that has the fields of a schema. -/
def document (schema : Schema) : Field :=
  .ofKind "" (.embedded ⟨⟨"", none, []⟩, [], [], schema, none⟩)

theorem everywhere_document (unviewed : schema.Unviewed) :
    schema.document.Everywhere Field.Unviewed := by
  refine ⟨?_, unviewed⟩
  rintro nested ⟨⟩
  rfl

theorem get?_eq_descend? (schema : Schema) (path : String) :
    schema.get? path = schema.document.descend? (Path.segments path) := by
  unfold get?
  cases isPath : Path.segments path with
  | nil => exact absurd isPath (Path.segments_ne_nil path)
  | cons name rest => rfl

theorem effective?_eq_effective?_document (schema : Schema) (path : String) :
    schema.effective? path = schema.document.effective? (Path.segments path) := by
  unfold effective?
  cases isPath : Path.segments path with
  | nil => exact absurd isPath (Path.segments_ne_nil path)
  | cons name rest => rfl

theorem document_update (schema : Schema) (path : String) (change : Field → Field) :
    (schema.update path change).document =
      schema.document.updateBelow change (Path.segments path) := by
  unfold update
  cases isPath : Path.segments path with
  | nil => exact absurd isPath (Path.segments_ne_nil path)
  | cons name rest => rfl

theorem shownBelow_document (schema : Schema) (showPrivate : Bool) :
    schema.document.shownBelow showPrivate = schema.shownRows showPrivate := by
  have holds : schema.document.Holds ⟨⟨"", none, []⟩, [], [], schema, none⟩ := .document _ _
  rw [holds.shownBelow_eq, shownRows]
  simp [Embedded.visible, Embedded.visibleIn, Embedded.isVisible]

/-- The paths of a flat schema can be told from what constraints see. -/
theorem keys_flatten (schema : Schema) (constraints : Constraints) (showPrivate : Bool) :
    (schema.flatten constraints showPrivate).map Mapping.keys =
      constraints.validate.map fun _ => Mapping.firstMentions []
        (((schema.document.outcomes constraints showPrivate).filter Prod.snd).map fun row =>
          Path.dotted row.1) := by
  have listed : Mapping.keys ((schema.paths showPrivate).filter fun entry =>
      constraints.isMetBy entry.2) =
      ((schema.document.outcomes constraints showPrivate).filter Prod.snd).map fun row =>
        Path.dotted row.1 := by
    simp only [Mapping.keys, paths_eq_map, Field.outcomes, shownBelow_document, List.filter_map,
      List.map_map]
    rfl
  rw [flatten, ← listed]
  cases constraints.validate with
  | error fault => rfl
  | ok isConstrained => exact congrArg Except.ok (Mapping.keys_extend [] _)

/-- While no view is installed, an update reaches what a look-up finds.  Whatever is said there
anew, the look-up finds it said; every look-up that ends neither there nor on the way there finds
what it found before; and the flat paths stay, in their order, under all constraints. -/
theorem remarks_keep_paths (unviewed : schema.Unviewed) (path : String) :
    schema.effective? path = schema.get? path ∧
      ∀ remarks,
        let edited := schema.update path (Field.withRemarks remarks)
        edited.get? path = (schema.get? path).map (Field.withRemarks remarks) ∧
          (∀ other, ¬ Path.segments other <+: Path.segments path →
            edited.get? other = schema.get? other) ∧
          ∀ constraints showPrivate,
            (edited.flatten constraints showPrivate).map Mapping.keys =
              (schema.flatten constraints showPrivate).map Mapping.keys := by
  have everywhere := everywhere_document unviewed
  refine ⟨?_, fun remarks => ⟨?_, fun other apart => ?_, fun constraints showPrivate => ?_⟩⟩
  · rw [effective?_eq_effective?_document, get?_eq_descend?,
      Field.descend?_eq_effective? everywhere]
  · have isFound := Field.descend?_updateBelow_append everywhere
      (Field.withRemarks remarks) (Path.segments path) []
    rw [List.append_nil] at isFound
    rw [get?_eq_descend?, get?_eq_descend?, document_update]
    exact isFound
  · have unseen := Field.unseen_withRemarks remarks
    rw [get?_eq_descend?, get?_eq_descend?, document_update]
    exact Field.descend?_updateBelow_of_not_prefix unseen everywhere apart
  · have unseen := Field.unseen_withRemarks remarks
    rw [keys_flatten, keys_flatten, document_update, unseen.outcomes_updateBelow everywhere]

end Schema

/-- Samples with a list of detections in a document. -/
def samples : Schema :=
  let detection : DocumentType :=
    ⟨"Detection", none, [("label", .string "label"), ("confidence", .float "confidence")]⟩
  [("filepath", .string "filepath"),
    ("ground_truth", .embeddedWith "ground_truth" ⟨"Detections", none, []⟩
      [.embeddedList "detections" detection] [])]

theorem remarks_keep_paths_samples :
    samples.Unviewed ∧
      let path := "ground_truth.detections.confidence"
      samples.effective? path = samples.get? path ∧
        ∀ remarks,
          let edited := samples.update path (Field.withRemarks remarks)
          edited.get? path = (samples.get? path).map (Field.withRemarks remarks) ∧
            (∀ other, ¬ Path.segments other <+: Path.segments path →
              edited.get? other = samples.get? other) ∧
            ∀ constraints showPrivate,
              (edited.flatten constraints showPrivate).map Mapping.keys =
                (samples.flatten constraints showPrivate).map Mapping.keys := by
  have unviewed : samples.Unviewed := by
    refine ⟨⟨nofun, trivial⟩, ⟨?_, ⟨nofun, ?_, ⟨nofun, trivial⟩, ⟨nofun, trivial⟩, trivial⟩,
      trivial⟩, trivial⟩
    · rintro nested ⟨⟩
      rfl
    · rintro nested ⟨⟩
      rfl
  exact ⟨unviewed, Schema.remarks_keep_paths unviewed _⟩

example :
    let edited := samples.update "ground_truth.detections.confidence" fun field =>
      field.setDescription (some "model score")
    (edited.get? "ground_truth.detections.confidence").map (·.attributes.description) =
        some (some "model score") ∧
      (edited.get? "ground_truth.detections.label").map (·.attributes.description) =
        some none := by
  decide

end SchemaTree
