import SchemaTree.Field.Constructors
import SchemaTree.Proofs.Embedded.Edits
import SchemaTree.Proofs.Log
import SchemaTree.Schema

/-!
What mutations log.  Declaring, renaming and removing report an event each, in a schema as in the
documents below it, but for the removal of a whole field from a schema.  In a run, what reports an
event writes one line of it, and what fails or finds nothing to remove writes nothing.
-/

namespace SchemaTree

/-! ## Edits of a document -/

/-- The event that a successful edit reports. -/
def Edit.eventKind : Edit → EventKind
  | declare _ _ _ => .fieldDeclared
  | rename _ _ _ _ => .fieldRenamed
  | remove _ => .fieldRemoved

namespace Embedded

/-- A payload after an edit and the event of that, unless the edit fails or finds nothing to
remove. -/
def edit? (nested : Embedded) : Edit → Option (Embedded × Event)
  | .declare dataset path field => (nested.declareField dataset path field).toOption
  | .rename dataset old path field => (nested.renameField dataset old path field).toOption
  | .remove name => (nested.removeField name).map Prod.snd

/-- Whether an edit has a valid name that is free, or finds what it is to remove. -/
def admits (nested : Embedded) : Edit → Bool
  | .declare _ _ field => isFieldName field.name
  | .rename _ old _ field =>
      isFieldName field.name
        && (field.name = old || !Mapping.contains nested.fields field.name)
  | .remove name => Mapping.contains nested.fields name

/-- An edit that is admitted reports its event, and any other leaves no result. -/
theorem edit?_cases (nested : Embedded) (edit : Edit) :
    nested.admits edit = false ∧ nested.edit? edit = none ∨
      nested.admits edit = true ∧ ∃ fields,
        nested.edit? edit = some (nested.apply edit, ⟨edit.eventKind, fields⟩) := by
  cases edit with
  | declare dataset path field =>
      cases isName : isFieldName field.name <;>
        simp [admits, edit?, declareField, apply, checkFieldName, isName, Except.toOption,
          Edit.eventKind]
  | rename dataset old path field =>
      cases isName : isFieldName field.name with
      | false => simp [admits, edit?, renameField, checkFieldName, isName, Except.toOption]
      | true =>
          by_cases taken : field.name ≠ old ∧ Mapping.contains nested.fields field.name = true
          · left
            simp [admits, edit?, renameField, checkFieldName, isName, taken, Except.toOption]
          · right
            have isFree : field.name = old ∨ Mapping.contains nested.fields field.name = false := by
              rwa [not_and_or, not_not, Bool.not_eq_true] at taken
            refine ⟨by simpa [admits, isName] using isFree, ?_⟩
            simp only [edit?, renameField, apply, checkFieldName, isName, if_true, if_neg taken]
            exact ⟨_, rfl⟩
  | remove name =>
      cases isFound : Mapping.lookup nested.fields name <;>
        simp [admits, edit?, removeField, apply, Mapping.contains_eq_isSome_lookup, isFound,
          Edit.eventKind]

end Embedded

/-! ## Mutations of a schema -/

namespace Schema

/-- A call that changes the fields of a schema, or those of the document that a path leads to. -/
inductive Mutation where
  | declare (dataset : Option Uuid) (field : Field)
  | remove (name : String)
  | within (parent : String) (edit : Edit)

/-- The event that a successful call reports. -/
def Mutation.eventKind? : Mutation → Option EventKind
  | declare _ _ => some .fieldDeclared
  | remove _ => none
  | within _ edit => some edit.eventKind

/-- The document whose fields a path leads to. -/
def document? (schema : Schema) (path : String) : Option Embedded :=
  (schema.effective? path).bind Field.nested?

/-- A schema after a call and the event of that, unless the call fails or finds nothing to
remove. -/
def mutate? (schema : Schema) : Mutation → Option (Schema × Option Event)
  | .declare dataset field => (schema.declare dataset field).toOption.map fun outcome =>
      (outcome.1, some outcome.2)
  | .remove name => (schema.remove name).map fun removed => (removed.2, none)
  | .within parent edit => (schema.document? parent).bind fun nested =>
      (nested.edit? edit).map fun outcome =>
        (schema.update parent (Field.modifyNested fun _ => outcome.1), some outcome.2)

/-- Whether a call installs, moves or removes a field. -/
def admits (schema : Schema) : Mutation → Bool
  | .declare _ field => isFieldName field.name
  | .remove name => Mapping.contains schema name
  | .within parent edit => (schema.document? parent).any fun nested => nested.admits edit

/-- A call and the schema on which it is made. -/
structure Turn where
  before : Schema
  mutation : Mutation

namespace Turn

def after (turn : Turn) : Schema :=
  ((turn.before.mutate? turn.mutation).map Prod.fst).getD turn.before

/-- Whether a field is installed, moved or removed. -/
def isChange (turn : Turn) : Bool :=
  turn.before.admits turn.mutation

/-- What is written at a least severity. -/
def output (least : Severity) (turn : Turn) : Log.Output :=
  match (turn.before.mutate? turn.mutation).bind Prod.snd with
  | some event => Log.writeEvent least event
  | none => ⟨"", ""⟩

/-- Whether a field is changed by a call that reports an event. -/
def isReported (turn : Turn) : Bool :=
  turn.isChange && turn.mutation.eventKind?.isSome

end Turn

/-- The turns of a run of calls. -/
def turns (schema : Schema) : List Mutation → List Turn
  | [] => []
  | mutation :: rest =>
      let turn := Turn.mk schema mutation
      turn :: turn.after.turns rest

/-- A call that changes a field has a result, with its event, and any other has none. -/
theorem mutate?_cases (schema : Schema) (mutation : Mutation) :
    schema.admits mutation = false ∧ schema.mutate? mutation = none ∨
      schema.admits mutation = true ∧ ∃ after event?,
        schema.mutate? mutation = some (after, event?) ∧
          event?.map Event.kind = mutation.eventKind? := by
  cases mutation with
  | declare dataset field =>
      cases isName : isFieldName field.name <;>
        simp [admits, mutate?, declare, checkFieldName, isName, Except.toOption,
          Mutation.eventKind?]
  | remove name =>
      cases isFound : Mapping.lookup schema name <;>
        simp [admits, mutate?, remove, Mapping.contains_eq_isSome_lookup, isFound,
          Mutation.eventKind?]
  | within parent edit =>
      cases isDocument : schema.document? parent with
      | none => simp [admits, mutate?, isDocument]
      | some nested =>
          rcases nested.edit?_cases edit with ⟨refused, failed⟩ | ⟨admitted, fields, edited⟩
          · simp [admits, mutate?, isDocument, refused, failed]
          · simp [admits, mutate?, isDocument, admitted, edited, Mutation.eventKind?]

end Schema

/-! ## Lines -/

namespace Log

/-- Whether an output is one line of an event, on the standard channel. -/
def Output.IsLineOf (kind : EventKind) (output : Output) : Prop :=
  ∃ body fields, output = ⟨body ++ "\n", ""⟩ ∧ '\n' ∉ body.toList ∧
    output.standard = line .info kind.name fields

variable {least : Severity}

/-- An event that passes the least severity is written as one line. -/
theorem isLineOf_writeEvent (isEnabled : enabled least .info = true) (event : Event) :
    (writeEvent least event).IsLineOf event.kind := by
  have written : writeEvent least event = ⟨line .info event.kind.name event.fields, ""⟩ := by
    simp [writeEvent, write, isEnabled, Severity.rank]
  rw [written, line_eq]
  refine ⟨_, event.fields, rfl, ?_, (line_eq ..).symm⟩
  rw [String.toList_ofList]
  exact newline_notMem_object _ _

theorem Output.IsLineOf.count {kind : EventKind} {output : Output} (isLine : output.IsLineOf kind) :
    output.standard.toList.count '\n' = 1 := by
  obtain ⟨body, fields, rfl, noBreak, _⟩ := isLine
  simp [List.count_eq_zero.mpr noBreak]

end Log

/-! ## Runs -/

namespace Schema

variable {least : Severity}

/-- All that a run of calls writes on the standard channel. -/
def log (least : Severity) (schema : Schema) (mutations : List Mutation) : List Char :=
  (schema.turns mutations).flatMap fun turn => (turn.output least).standard.toList

namespace Turn

variable (turn : Turn)

theorem isSome_mutate? : (turn.before.mutate? turn.mutation).isSome = turn.isChange := by
  rcases turn.before.mutate?_cases turn.mutation with
    ⟨refused, failed⟩ | ⟨admitted, _, _, made, _⟩
  · simp [isChange, refused, failed]
  · simp [isChange, admitted, made]

theorem isLineOf_output (isEnabled : Log.enabled least .info = true)
    (isChange : turn.isChange = true) {kind : EventKind}
    (isKind : turn.mutation.eventKind? = some kind) : (turn.output least).IsLineOf kind := by
  rcases turn.before.mutate?_cases turn.mutation with
    ⟨refused, _⟩ | ⟨_, after, event?, made, same⟩
  · simp [Turn.isChange, refused] at isChange
  · rw [isKind, Option.map_eq_some_iff] at same
    obtain ⟨event, rfl, rfl⟩ := same
    simpa [output, made] using Log.isLineOf_writeEvent isEnabled event

theorem output_of_silent (least : Severity)
    (isSilent : turn.isChange = false ∨ turn.mutation.eventKind? = none) :
    turn.output least = ⟨"", ""⟩ := by
  rcases turn.before.mutate?_cases turn.mutation with
    ⟨_, failed⟩ | ⟨admitted, after, event?, made, same⟩
  · simp [output, failed]
  · have noEvent : event? = none := by
      simpa [isChange, admitted, ← same] using isSilent
    simp [output, made, noEvent]

theorem count_output (isEnabled : Log.enabled least .info = true) :
    (turn.output least).standard.toList.count '\n' = if turn.isReported then 1 else 0 := by
  by_cases isReported : turn.isReported = true
  · obtain ⟨isChange, kind, isKind⟩ :
        turn.isChange = true ∧ ∃ kind, turn.mutation.eventKind? = some kind := by
      simpa [Turn.isReported, Option.isSome_iff_exists] using isReported
    rw [if_pos isReported, (turn.isLineOf_output isEnabled isChange isKind).count]
  · have isSilent : turn.isChange = false ∨ turn.mutation.eventKind? = none := by
      cases isChange : turn.isChange <;> simp_all [Turn.isReported]
    rw [if_neg isReported, turn.output_of_silent least isSilent]
    rfl

end Turn

theorem count_log (isEnabled : Log.enabled least .info = true) (schema : Schema)
    (mutations : List Mutation) :
    (schema.log least mutations).count '\n' = (schema.turns mutations).countP Turn.isReported := by
  rw [log]
  -- Each turn starts from the schema that the one before it left.
  induction mutations generalizing schema with
  | nil => rfl
  | cons mutation rest inductionHypothesis =>
      simp only [turns, List.flatMap_cons, List.count_append, List.countP_cons,
        Turn.count_output _ isEnabled, inductionHypothesis]
      omega

/-- In a run of calls at a least severity that passes events, each call that changes a field writes
exactly one line of its event, unless it is the removal of a whole field of the schema.  Such a
removal writes nothing, and neither does a call that fails or finds nothing to remove.  So the log
has as many lines as there are calls of the former sort. -/
theorem log_of_run (isEnabled : Log.enabled least .info = true) (schema : Schema)
    (mutations : List Mutation) :
    (∀ turn ∈ schema.turns mutations,
      (turn.before.mutate? turn.mutation).isSome = turn.isChange ∧
        (turn.isChange = true → ∀ kind, turn.mutation.eventKind? = some kind →
          (turn.output least).IsLineOf kind) ∧
        (turn.isChange = false ∨ turn.mutation.eventKind? = none →
          turn.output least = ⟨"", ""⟩)) ∧
      (schema.log least mutations).count '\n' =
        (schema.turns mutations).countP Turn.isReported :=
  ⟨fun turn _ => ⟨turn.isSome_mutate?, fun isChange _ => turn.isLineOf_output isEnabled isChange,
    turn.output_of_silent least⟩, count_log isEnabled schema mutations⟩

/-- Samples with a label and detections. -/
def samples : Schema :=
  [("label", .string "label"), ("detections", .embedded "detections" ⟨"Detection", none, []⟩)]

/-- Calls on samples, some of which fail or find nothing. -/
def sampleMutations : List Mutation :=
  [.declare none (.int "count"), .declare none (.int "a.count"),
    .within "detections" (.declare none "detections.area" (.float "area")),
    .within "detections" (.rename none "area" "detections.size" (.float "size")),
    .within "label" (.remove "size"), .within "detections" (.remove "size"),
    .within "detections" (.remove "size"), .remove "area", .remove "label"]

theorem log_of_run_samples :
    Log.enabled .info .info = true ∧ (samples.log .info sampleMutations).count '\n' = 4 :=
  ⟨rfl, (log_of_run rfl samples sampleMutations).2.trans (by decide +kernel)⟩

/-- The removal of a field from a schema is silent. -/
theorem removal_of_label_unlogged :
    let turn : Turn := ⟨samples, .remove "label"⟩
    turn.isChange = true ∧ Mapping.keys turn.after = ["detections"] ∧
      turn.output .info = ⟨"", ""⟩ ∧ ∀ kind, ¬(turn.output .info).IsLineOf kind := by
  refine ⟨by decide +kernel, by decide +kernel, rfl, fun kind isLine => ?_⟩
  have noLine : 0 = 1 := isLine.count
  contradiction

end Schema

end SchemaTree
