import SchemaTree.Field.Constructors
import SchemaTree.Merge
import SchemaTree.Proofs.Field.Deep
import SchemaTree.Record

/-!
Views of embedded documents are transient.  Installing and clearing views between edits of a
document changes neither its fields nor what is recorded of it or merged into it; a record has
nothing of bindings, compiled stages and views, wherever they are in a field.
-/

namespace SchemaTree

/-! ## Runs with views -/

namespace Embedded

/-- A call on an embedded document: an edit of its fields, or a change of its view. -/
inductive Call where
  | edit (edit : Edit)
  | useView (view : View)
  | clearView

/-- Whether a call is an edit. -/
def Call.isEdit : Call → Bool
  | edit _ => true
  | useView _ | clearView => false

/-- The payload after a call, which is unchanged if the call fails. -/
def perform (nested : Embedded) : Call → Embedded
  | .edit edit => nested.apply edit
  | .useView view => (nested.useView view).1
  | .clearView => match nested.clearView with
    | some (_, after, _) => after
    | none => nested

/-- The payload after a run of calls. -/
def performAll (nested : Embedded) (calls : List Call) : Embedded :=
  calls.foldl perform nested

/-- The payload with a view installed, or without one. -/
def withView (nested : Embedded) (view : Option View) : Embedded :=
  { nested with view }

section Views

variable (nested : Embedded) (view : Option View)

@[simp]
theorem fields_withView : (nested.withView view).fields = nested.fields :=
  rfl

theorem displace_withView (name : String) :
    (nested.withView view).displace name = (nested.displace name).withView view := by
  have sameTest : ((nested.withView view).isDefault name &&
      !(nested.withView view).displaced.contains name) =
      (nested.isDefault name && !nested.displaced.contains name) := rfl
  rw [displace, displace, sameTest]
  split <;> rfl

/-- An edit does not look at the view. -/
theorem apply_withView (edit : Edit) :
    (nested.withView view).apply edit = (nested.apply edit).withView view := by
  cases edit with
  | declare dataset path field =>
      simp only [apply, declareField, displace_withView]
      cases checkFieldName field.name <;> rfl
  | rename dataset old path field =>
      simp only [apply, renameField, displace_withView, fields_withView]
      cases checkFieldName field.name with
      | error error => rfl
      | ok checked =>
          by_cases isTaken : field.name ≠ old ∧ Mapping.contains nested.fields field.name = true
          · simp only [if_pos isTaken]
          · simp only [if_neg isTaken]
            rfl
  | remove name =>
      simp only [apply, removeField, displace_withView, fields_withView]
      cases Mapping.lookup nested.fields name <;> rfl

theorem perform_withView (call : Call) :
    (nested.perform call).withView view =
      if call.isEdit then (nested.withView view).perform call else nested.withView view := by
  cases call with
  | edit edit => exact (nested.apply_withView view edit).symm
  | useView other => rfl
  | clearView =>
      obtain ⟨documentType, declared, displaced, fields, installed⟩ := nested
      cases installed <;> rfl

theorem performAll_withView (calls : List Call) :
    (nested.performAll calls).withView view =
      (nested.withView view).performAll (calls.filter Call.isEdit) := by
  induction calls generalizing nested with
  | nil => rfl
  | cons call rest inductionHypothesis =>
      rw [performAll, List.foldl_cons, ← performAll, inductionHypothesis, perform_withView]
      cases isEdit : call.isEdit with
      | true =>
          rw [List.filter_cons_of_pos isEdit, if_pos rfl]
          rfl
      | false => rw [List.filter_cons_of_neg (by simp [isEdit]), if_neg nofun]

/-- A run with views and its edits alone make the same of a payload, but for the view. -/
theorem withView_performAll_filter (calls : List Call) :
    (nested.performAll (calls.filter Call.isEdit)).withView view =
      (nested.performAll calls).withView view := by
  rw [performAll_withView, performAll_withView, List.filter_filter]
  simp only [Bool.and_self]

theorem merge_withView (path : String) (incoming : Field) (validate recursive : Bool) :
    (nested.withView view).merge path incoming validate recursive =
      nested.merge path incoming validate recursive :=
  rfl

end Views

end Embedded

/-! ## What is never recorded -/

mutual

/-- The field without bindings, compiled stages and views, wherever they are in it. -/
def Field.bare : Field → Field
  | ⟨attributes, kind⟩ => ⟨attributes.rebind none, kind.bare⟩
  termination_by structural field => field

def Kind.bare : Kind → Kind
  | .list flavor (some element) => .list flavor (some element.bare)
  | .dict flavor (some element) => .dict flavor (some element.bare)
  | .embedded nested => .embedded nested.bare
  | kind => kind
  termination_by structural kind => kind

def Embedded.bare : Embedded → Embedded
  | ⟨documentType, declared, displaced, fields, _⟩ =>
      ⟨documentType.bare, declared, displaced, bareEntries fields, none⟩
  termination_by structural nested => nested

def DocumentType.bare : DocumentType → DocumentType
  | ⟨name, parent, fields⟩ => ⟨name, bareParent parent, bareEntries fields⟩
  termination_by structural type => type

def bareParent : Option DocumentType → Option DocumentType
  | none => none
  | some type => some type.bare
  termination_by structural parent => parent

def bareEntries : List (String × Field) → List (String × Field)
  | [] => []
  | (name, field) :: rest => (name, field.bare) :: bareEntries rest
  termination_by structural fields => fields

end

theorem name_bare (type : DocumentType) : type.bare.name = type.name := by
  cases type
  rfl

theorem Record.ofAttributes_rebind (attributes : Attributes) (binding : Option Binding)
    (type : FieldType) :
    ofAttributes (attributes.rebind binding) type = ofAttributes attributes type := by
  rw [ofAttributes, Attributes.rebind, Option.map_map]
  rfl

mutual

/-- A record has nothing of bindings, compiled stages and views. -/
theorem Field.toRecord_bare : (field : Field) → field.bare.toRecord = field.toRecord
  | ⟨attributes, .list flavor (some element)⟩ => by
      rw [Field.bare, Kind.bare, Field.toRecord, Field.toRecord, element.toRecord_bare,
        Record.ofAttributes_rebind]
  | ⟨attributes, .dict flavor (some element)⟩ => by
      rw [Field.bare, Kind.bare, Field.toRecord, Field.toRecord, element.toRecord_bare,
        Record.ofAttributes_rebind]
  | ⟨attributes, .embedded ⟨documentType, declared, displaced, fields, view⟩⟩ => by
      rw [Field.bare, Kind.bare, Embedded.bare, Field.toRecord, Field.toRecord,
        Embedded.toRecord, Embedded.toRecord, recordEntries_bare fields, name_bare,
        Record.ofAttributes_rebind]
  | ⟨attributes, .float least greatest⟩ =>
      congrArg (fun plain : Record => { plain with least, greatest })
        (Record.ofAttributes_rebind attributes none .float)
  | ⟨attributes, .list flavor none⟩ | ⟨attributes, .dict flavor none⟩ | ⟨attributes, .objectId⟩
  | ⟨attributes, .uuid⟩ | ⟨attributes, .boolean⟩ | ⟨attributes, .int⟩ | ⟨attributes, .frameNumber⟩
  | ⟨attributes, .string⟩ | ⟨attributes, .date⟩ | ⟨attributes, .dateTime⟩
  | ⟨attributes, .geo geometry⟩ | ⟨attributes, .vector⟩ | ⟨attributes, .array⟩ =>
      Record.ofAttributes_rebind attributes none _
  termination_by structural field => field

theorem recordEntries_bare : (fields : List (String × Field)) →
    recordEntries (bareEntries fields) = recordEntries fields
  | [] => rfl
  | (name, field) :: rest => by
      rw [bareEntries, recordEntries, recordEntries, field.toRecord_bare, recordEntries_bare rest]
  termination_by structural fields => fields

end

/-! ## Changes of what is never recorded -/

section Congruence

variable {first second : Embedded → Embedded}

theorem bareEntries_adjust {change other : Field → Field}
    (same : ∀ field, (change field).bare = (other field).bare) (fields : List (String × Field))
    (name : String) :
    bareEntries (Mapping.adjust fields name change) =
      bareEntries (Mapping.adjust fields name other) := by
  induction fields with
  | nil => rfl
  | cons entry rest inductionHypothesis =>
      obtain ⟨key, field⟩ := entry
      rw [Mapping.adjust, Mapping.adjust]
      by_cases isHere : key = name
      · rw [if_pos isHere, if_pos isHere, bareEntries, bareEntries, same]
      · rw [if_neg isHere, if_neg isHere, bareEntries, bareEntries, inductionHypothesis]

theorem Field.bare_modifyNested (same : ∀ nested, (first nested).bare = (second nested).bare)
    (field : Field) : (field.modifyNested first).bare = (field.modifyNested second).bare := by
  cases isNested : field.nested? with
  | none => simp only [modifyNested_of_nested?_eq_none isNested]
  | some nested =>
      cases nested?_eq_some_iff.mp isNested <;>
        simp only [modifyNested, Field.bare, Kind.bare, same nested]

theorem Field.bare_updateBelow (same : ∀ nested, (first nested).bare = (second nested).bare)
    (names : List String) (field : Field) :
    (field.updateBelow (modifyNested first) names).bare =
      (field.updateBelow (modifyNested second) names).bare := by
  induction names generalizing field with
  | nil => exact field.bare_modifyNested same
  | cons name rest inductionHypothesis =>
      refine field.bare_modifyNested fun nested => ?_
      simp only [Embedded.bare, bareEntries_adjust inductionHypothesis]

theorem Embedded.bare_withView (nested : Embedded) (view : Option View) :
    (nested.withView view).bare = nested.bare := by
  cases nested
  rfl

end Congruence

/-- Calls that install and clear views leave no trace in a run on an embedded document: the run
without them gives the same effective, declared and displaced fields, merges alike, and leaves the
same record of whatever field the document is in.  Views, bindings and compiled stages make no
difference to the records of fields. -/
theorem Embedded.views_leave_no_trace (nested : Embedded) (calls : List Embedded.Call) :
    let edited := nested.performAll (calls.filter Call.isEdit)
    let viewed := nested.performAll calls
    (viewed.fields = edited.fields ∧ viewed.declaredFields = edited.declaredFields ∧
        viewed.displaced = edited.displaced) ∧
      (∀ path incoming validate recursive,
        viewed.merge path incoming validate recursive =
          edited.merge path incoming validate recursive) ∧
      (∀ outer : Field, ∀ names,
        (outer.updateBelow (.modifyNested (performAll · calls)) names).toRecord =
          (outer.updateBelow (.modifyNested (performAll · (calls.filter Call.isEdit)))
            names).toRecord) ∧
      ∀ first second : Field, first.bare = second.bare → first.toRecord = second.toRecord := by
  intro edited viewed
  have sameRecord : ∀ first second : Field, first.bare = second.bare →
      first.toRecord = second.toRecord := by
    intro first second same
    rw [← first.toRecord_bare, same, second.toRecord_bare]
  have same : edited.withView none = viewed.withView none :=
    nested.withView_performAll_filter none calls
  refine ⟨⟨?_, ?_, ?_⟩, fun path incoming validate recursive => ?_, fun outer names => ?_,
    sameRecord⟩
  · exact (congrArg Embedded.fields same).symm
  · exact (congrArg Embedded.declaredFields same).symm
  · exact (congrArg Embedded.displaced same).symm
  · rw [← merge_withView viewed none, ← same, merge_withView]
  · refine sameRecord _ _ (outer.bare_updateBelow (fun inner => ?_) names)
    rw [← bare_withView _ none, ← inner.withView_performAll_filter none calls, bare_withView]

def trailType : DocumentType :=
  ⟨"Trail", none, [("length", .float "length")]⟩

/-- Fields are declared and removed under one view, without a view and under another one. -/
def guidedTour : List Embedded.Call :=
  [.useView ⟨none, none, [("length", .string "length")]⟩,
    .edit (.declare none "trail.stage" (.int "stage")), .clearView, .edit (.remove "length"),
    .useView ⟨some ["stage"], none, []⟩]

/-- A trail that is attached and compiled, and shown by a view. -/
def markedTrail : Field :=
  ⟨⟨"trail", none, none, false, true, some ⟨.string "$path", some (.string "$trail.path")⟩,
    some ⟨⟨List.replicate 16 5, rfl⟩, "trail"⟩⟩,
    .embedded ((Embedded.ofType trailType).withView (some .all))⟩

theorem views_leave_no_trace_guidedTour :
    let trail := Embedded.ofType trailType
    let plain := (Field.embedded "trail" trailType).withExpression (.string "$path")
    ((trail.performAll guidedTour).view.isSome = true ∧ markedTrail.bare = plain.bare) ∧
      (trail.performAll guidedTour).fields =
        (trail.performAll (guidedTour.filter Embedded.Call.isEdit)).fields ∧
      markedTrail.toRecord = plain.toRecord := by
  obtain ⟨⟨sameFields, _, _⟩, _, _, sameRecord⟩ :=
    Embedded.views_leave_no_trace (Embedded.ofType trailType) guidedTour
  exact ⟨⟨rfl, rfl⟩, sameFields, sameRecord _ _ rfl⟩

end SchemaTree
