import SchemaTree.Proofs.Provenance

/-!
What edits leave alone.  An edit changes a payload under the names that it is given and nowhere
else: every other name keeps its field and its place among the rest, and so it does among the
declared and the displaced names.  An edit that fails changes nothing at all.
-/

namespace SchemaTree

/-- The names that an edit is given. -/
def Edit.given : Edit → List String
  | declare _ _ field => [field.name]
  | rename _ old _ field => [old, field.name]
  | remove name => [name]

namespace Embedded

/-- The payloads of a document type that come about by building one and then editing, attaching
and detaching it, in any order. -/
inductive Reached (type : DocumentType) : Embedded → Prop
  | build (fields : List Field) (displaced : List String) :
      Reached type (build type fields displaced)
  | edit {nested : Embedded} (reached : Reached type nested) (edit : Edit) :
      Reached type (nested.apply edit)
  | rebind {nested : Embedded} (reached : Reached type nested) (binding : Option Binding) :
      Reached type (nested.rebind binding)

/-- The outcome of an edit: the payload after it, or the error that the edit returns.  To remove
an absent name is no error. -/
def attempt (nested : Embedded) : Edit → Except Error Embedded
  | .declare dataset path field => (nested.declareField dataset path field).map Prod.fst
  | .rename dataset old path field => (nested.renameField dataset old path field).map Prod.fst
  | .remove name => .ok (((nested.removeField name).map fun removed => removed.2.1).getD nested)

/-- Whether two payloads agree on all names but some: on their fields and the order of these, and
on the declared and the displaced names and their order. -/
structure SameBut (names : List String) (before after : Embedded) : Prop where
  documentType : after.documentType = before.documentType
  view : after.view = before.view
  fields : (after.fields.filter fun entry => entry.1 ∉ names) =
    before.fields.filter fun entry => entry.1 ∉ names
  declared : after.declared.filter (· ∉ names) = before.declared.filter (· ∉ names)
  displaced : after.displaced.filter (· ∉ names) = before.displaced.filter (· ∉ names)

theorem SameBut.refl (names : List String) (nested : Embedded) : nested.SameBut names nested :=
  ⟨rfl, rfl, rfl, rfl, rfl⟩

section Names

variable {names : List String} {old new : String}

theorem filter_erase (isGiven : old ∈ names) (fields : List (String × Field)) :
    ((Mapping.erase fields old).filter fun entry => entry.1 ∉ names) =
      fields.filter fun entry => entry.1 ∉ names := by
  induction fields with
  | nil => rfl
  | cons entry rest inductionHypothesis =>
      obtain ⟨name, field⟩ := entry
      rw [Mapping.erase]
      by_cases same : name = old
      · rw [if_pos same, inductionHypothesis, List.filter_cons_of_neg (by simp [same, isGiven])]
      · simp only [if_neg same, List.filter_cons, inductionHypothesis]

theorem filter_erase_append (oldGiven : old ∈ names) (newGiven : new ∈ names)
    (fields : List (String × Field)) (field : Field) :
    ((Mapping.erase fields old ++ [(new, field)]).filter fun entry => entry.1 ∉ names) =
      fields.filter fun entry => entry.1 ∉ names := by
  rw [List.filter_append, filter_erase oldGiven]
  simp [newGiven]

theorem filter_without (isGiven : old ∈ names) (declared : List String) :
    (declared.filter (· ≠ old)).filter (· ∉ names) = declared.filter (· ∉ names) := by
  rw [List.filter_filter]
  refine List.filter_congr fun name _ => ?_
  by_cases same : name = old <;> simp [same, isGiven]

theorem filter_replaceFirst (oldGiven : old ∈ names) (newGiven : new ∈ names)
    (declared : List String) :
    (replaceFirst old new declared).filter (· ∉ names) = declared.filter (· ∉ names) := by
  induction declared with
  | nil => rfl
  | cons name rest inductionHypothesis =>
      rw [replaceFirst]
      by_cases same : name = old
      · simp [same, oldGiven, newGiven]
      · simp only [if_neg same, List.filter_cons, inductionHypothesis]

theorem filter_renameDeclared (oldGiven : old ∈ names) (newGiven : new ∈ names)
    (declared : List String) :
    (renameDeclared declared old new).filter (· ∉ names) = declared.filter (· ∉ names) := by
  have moved : (if declared.contains old then replaceFirst old new declared
      else if declared.contains new then declared else declared ++ [new]).filter (· ∉ names) =
        declared.filter (· ∉ names) := by
    split
    · exact filter_replaceFirst oldGiven newGiven declared
    · split
      · rfl
      · simp [List.filter_append, newGiven]
  unfold renameDeclared
  by_cases same : new = old
  · rw [if_pos same, moved]
  · rw [if_neg same, filter_without oldGiven, moved]

theorem filter_displace (isGiven : old ∈ names) (nested : Embedded) :
    (nested.displace old).displaced.filter (· ∉ names) = nested.displaced.filter (· ∉ names) := by
  unfold displace
  split
  · simp [List.filter_append, isGiven]
  · rfl

end Names

/-- An edit leaves all names but those that it is given alone. -/
theorem sameBut_apply (nested : Embedded) (edit : Edit) :
    nested.SameBut edit.given (nested.apply edit) := by
  cases edit with
  | declare dataset path field =>
      have isGiven : field.name ∈ (Edit.declare dataset path field).given := List.mem_cons_self
      rcases nested.apply_declare dataset path field with same | same <;> rw [same]
      · exact .refl _ nested
      · refine ⟨rfl, rfl, filter_erase_append isGiven isGiven _ _, ?_,
          filter_displace isGiven nested⟩
        rw [List.filter_append, filter_without isGiven, List.filter_cons_of_neg (by simp [isGiven])]
        exact List.append_nil _
  | rename dataset old path field =>
      have oldGiven : old ∈ (Edit.rename dataset old path field).given := List.mem_cons_self
      have newGiven : field.name ∈ (Edit.rename dataset old path field).given :=
        List.mem_cons_of_mem _ List.mem_cons_self
      rcases nested.apply_rename dataset old path field with same | ⟨_, same⟩ <;> rw [same]
      · exact .refl _ nested
      · exact ⟨rfl, rfl, filter_erase_append oldGiven newGiven _ _,
          filter_renameDeclared oldGiven newGiven _,
          (filter_displace newGiven _).trans (filter_displace oldGiven nested)⟩
  | remove name =>
      have isGiven : name ∈ (Edit.remove name).given := List.mem_cons_self
      rcases nested.apply_remove name with same | same <;> rw [same]
      · exact .refl _ nested
      · exact ⟨rfl, rfl, filter_erase isGiven _, filter_without isGiven _,
          filter_displace isGiven nested⟩

theorem apply_of_attempt_error {nested : Embedded} {edit : Edit} {error : Error}
    (failed : nested.attempt edit = .error error) : nested.apply edit = nested := by
  cases edit with
  | declare dataset path field =>
      rw [attempt] at failed
      cases outcome : nested.declareField dataset path field with
      | error _ => simp only [apply, outcome]
      | ok _ => simp [outcome, Except.map] at failed
  | rename dataset old path field =>
      rw [attempt] at failed
      cases outcome : nested.renameField dataset old path field with
      | error _ => simp only [apply, outcome]
      | ok _ => simp [outcome, Except.map] at failed
  | remove name => contradiction

namespace Reached

variable {type : DocumentType} {nested : Embedded}

theorem documentType (reached : Reached type nested) : nested.documentType = type := by
  induction reached with
  | build fields displaced => rfl
  | edit _ edit inductionHypothesis => rw [documentType_apply, inductionHypothesis]
  | @rebind nested _ binding inductionHypothesis =>
      obtain ⟨type, declared, displaced, fields, view⟩ := nested
      exact inductionHypothesis

theorem consistent (reached : Reached type nested) (isBuilt : type.Built) :
    nested.Consistent := by
  induction reached with
  | build fields displaced => exact consistent_build fields displaced isBuilt.consistent
  | edit _ edit inductionHypothesis => exact inductionHypothesis.apply edit
  | rebind _ binding inductionHypothesis => exact inductionHypothesis.rebind binding

/-- Of any payload that was built and edited: its names are the declared ones and the defaults
that were not displaced, a name that is not declared has the default of the document type, and
only defaults are displaced.  A further edit leaves all names but those that it is given alone,
and changes nothing if it fails. -/
theorem holds_defaults_and_declared (reached : Reached type nested) (isBuilt : type.Built) :
    (∀ name, name ∈ Mapping.keys nested.fields ↔
      name ∈ nested.declared ∨ name ∈ Mapping.keys type.fields ∧ name ∉ nested.displaced) ∧
    (∀ name ∉ nested.declared, ∀ field, Mapping.lookup nested.fields name = some field →
      ∃ default, Mapping.lookup type.fields name = some default ∧
        field.detach = default.detach) ∧
    (∀ name ∈ nested.displaced, name ∈ Mapping.keys type.fields) ∧
    ∀ edit, nested.SameBut edit.given (nested.apply edit) ∧
      ∀ error, nested.attempt edit = .error error → nested.apply edit = nested := by
  have consistent := reached.consistent isBuilt
  have sameType := reached.documentType
  refine ⟨?_, ?_, ?_, ?_⟩
  · intro name
    rw [← sameType]
    exact consistent.names name
  · intro name isUndeclared field isFound
    refine ⟨field.detach, ?_, (field.detach_rebind none).symm⟩
    rw [← sameType]
    exact consistent.undeclared name isUndeclared field isFound
  · intro name isDisplaced
    rw [← sameType]
    exact consistent.displaced name isDisplaced
  · intro edit
    exact ⟨nested.sameBut_apply edit, fun error failed => apply_of_attempt_error failed⟩

end Reached

/-- Boxes with a corner and a size. -/
def boxType : DocumentType :=
  ⟨"Box", none, [("corner", .vector "corner"), ("size", .vector "size")]⟩

/-- A dataset that boxes are attached to. -/
def boxDataset : Uuid := ⟨List.replicate 16 0, rfl⟩

/-- An attached box whose corner was to take a name that is taken, and then took another one. -/
def movedBox : Embedded :=
  (((build boxType [.string "label"] []).rebind (some ⟨boxDataset, "box"⟩)).apply
    (.rename (some boxDataset) "corner" "box.size" (.vector "size"))).apply
    (.rename (some boxDataset) "corner" "box.origin" (.vector "origin"))

theorem holds_defaults_and_declared_movedBox :
    (Reached boxType movedBox ∧ boxType.Built) ∧
      (∀ name, name ∈ Mapping.keys movedBox.fields ↔ name ∈ movedBox.declared ∨
        name ∈ Mapping.keys boxType.fields ∧ name ∉ movedBox.displaced) ∧
      (∀ name ∉ movedBox.declared, ∀ field, Mapping.lookup movedBox.fields name = some field →
        ∃ default, Mapping.lookup boxType.fields name = some default ∧
          field.detach = default.detach) ∧
      (∀ name ∈ movedBox.displaced, name ∈ Mapping.keys boxType.fields) ∧
      ∀ edit, movedBox.SameBut edit.given (movedBox.apply edit) ∧
        ∀ error, movedBox.attempt edit = .error error → movedBox.apply edit = movedBox := by
  have reached : Reached boxType movedBox :=
    .edit (.edit (.rebind (.build [.string "label"] []) _) _) _
  have isBuilt : boxType.Built := by
    have built : DocumentType.build "Box" none [.vector "corner", .vector "size"] =
        .ok boxType := rfl
    exact .build built fun _ isParent => nomatch isParent
  exact ⟨⟨reached, isBuilt⟩, reached.holds_defaults_and_declared isBuilt⟩

end Embedded

end SchemaTree
