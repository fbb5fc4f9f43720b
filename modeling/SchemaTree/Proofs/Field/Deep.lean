import SchemaTree.Proofs.Embedded.Edits
import SchemaTree.Proofs.Field.Nested
import SchemaTree.Schema

/-!
Edits of embedded documents at any depth.  An edit reaches the document that a row of names leads
to; on the way there it replaces fields by fields of the same type, under the same names.
-/

namespace SchemaTree

/-- The declaration of a field on the embedded document that a row of names leads to. -/
structure Declaration where
  target : List String
  dataset : Option Uuid
  path : String
  field : Field

def Declaration.edit (declaration : Declaration) : Edit :=
  .declare declaration.dataset declaration.path declaration.field

/-- A field after an edit of the embedded document that a row of names leads to. -/
def Field.editBelow (edit : Edit) (target : List String) (field : Field) : Field :=
  field.updateBelow (Field.modifyNested fun nested => nested.apply edit) target

/-- A payload after an edit of the embedded document that a row of names leads to. -/
def Embedded.editAt (edit : Edit) : List String → Embedded → Embedded
  | [], nested => nested.apply edit
  | name :: rest, nested =>
      { nested with
        fields := Mapping.adjust nested.fields name (Field.modifyNested (editAt edit rest)) }

namespace Field

variable {field found : Field} {name : String} {names rest : List String}

theorem effective?_cons (field : Field) (name : String) (rest : List String) :
    field.effective? (name :: rest) =
      (field.nested?.bind fun nested => Mapping.lookup nested.fields name).bind
        (effective? rest) := by
  rw [effective?, reached?_eq_nested?]

theorem effective?_cons_eq_some_iff :
    field.effective? (name :: rest) = some found ↔
      ∃ nested inner, field.Holds nested ∧ Mapping.lookup nested.fields name = some inner ∧
        inner.effective? rest = some found := by
  simp only [effective?_cons, Option.bind_eq_some_iff, nested?_eq_some_iff]
  constructor
  · rintro ⟨inner, ⟨nested, holds, isInner⟩, isFound⟩
    exact ⟨nested, inner, holds, isInner, isFound⟩
  · rintro ⟨nested, inner, holds, isInner, isFound⟩
    exact ⟨inner, ⟨nested, holds, isInner⟩, isFound⟩

/-- Only what a change makes of the field that it reaches counts. -/
theorem updateBelow_congr {first second : Field → Field}
    (isFound : field.effective? names = some found) (same : first found = second found) :
    field.updateBelow first names = field.updateBelow second names := by
  induction names generalizing field with
  | nil =>
      cases isFound
      exact same
  | cons name rest inductionHypothesis =>
      obtain ⟨nested, inner, holds, isInner, isFound⟩ := effective?_cons_eq_some_iff.mp isFound
      refine holds.modifyNested_congr ?_
      rw [Mapping.adjust_congr fun value isValue => ?_]
      obtain rfl := Option.some.inj (isInner.symm.trans isValue)
      exact inductionHypothesis isFound

theorem editBelow_eq_modifyNested (edit : Edit) (target : List String) (field : Field) :
    field.editBelow edit target = field.modifyNested (Embedded.editAt edit target) := by
  induction target generalizing field with
  | nil => rfl
  | cons name rest inductionHypothesis =>
      have sameBelow : updateBelow (modifyNested fun nested => nested.apply edit) rest =
          modifyNested (Embedded.editAt edit rest) :=
        funext inductionHypothesis
      rw [editBelow, updateBelow, sameBelow]
      rfl

end Field

namespace Embedded

variable {dataset : Option Uuid} {path : String} {given : Field}

@[simp]
theorem documentType_editAt (edit : Edit) (target : List String) (nested : Embedded) :
    (nested.editAt edit target).documentType = nested.documentType := by
  cases target with
  | nil => exact nested.documentType_apply edit
  | cons name rest => rfl

/-- A declaration under a valid name succeeds, and installs the field at the end. -/
theorem declareField_of_isFieldName (isName : isFieldName given.name = true) (nested : Embedded) :
    (∃ event, nested.declareField dataset path given =
        .ok (nested.apply (.declare dataset path given), event)) ∧
      (nested.apply (.declare dataset path given)).fields =
        Mapping.erase nested.fields given.name ++
          [(given.name, (inheritFlags given (Mapping.lookup nested.fields given.name)).place
            dataset path)] := by
  have checked : checkFieldName given.name = .ok () := by simp [checkFieldName, isName]
  simp [apply, declareField, checked]

end Embedded

end SchemaTree
