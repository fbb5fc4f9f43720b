import Mathlib.Tactic.MkIffOfInductiveProp
import SchemaTree.Field.Constructors
import SchemaTree.Flatten
import SchemaTree.Proofs.Traverse

/-!
Constraints, answered and checked.  The answer and the check are written apart, but both come down
to the same three conditions, so that a query that is not flattened keeps exactly the fields that
the check lets through.
-/

namespace SchemaTree

/-- What it is for a field to satisfy all constraints that there are. -/
@[mk_iff]
structure Constraints.Admits (constraints : Constraints) (field : Field) : Prop where
  type : ∀ types, constraints.types = some types →
    ∃ other ∈ types, field.type.isSubtypeOf other = true
  documentType : ∀ documentTypes, constraints.documentTypes = some documentTypes →
    ∃ nested, field.embedded? = some nested ∧
      ∃ other ∈ documentTypes, nested.documentType.isSubclassOf other = true
  isVirtual : ∀ isVirtual, constraints.isVirtual = some isVirtual → field.isVirtual = isVirtual

namespace Constraints

variable {constraints : Constraints} {field : Field}

/-! ## One condition at a time -/

theorem checkType_eq_ok_iff (path : String) :
    constraints.checkType path field = .ok () ↔
      ∀ types, constraints.types = some types →
        ∃ other ∈ types, field.type.isSubtypeOf other = true := by
  cases isWanted : constraints.types with
  | none => simp [checkType, isWanted]
  | some types => simp [checkType, isWanted, FieldType.isSubtypeOfAny]

theorem checkDocumentType_eq_ok_iff (path : String) :
    constraints.checkDocumentType path field = .ok () ↔
      ∀ documentTypes, constraints.documentTypes = some documentTypes →
        ∃ nested, field.embedded? = some nested ∧
          ∃ other ∈ documentTypes, nested.documentType.isSubclassOf other = true := by
  cases isWanted : constraints.documentTypes with
  | none => simp [checkDocumentType, isWanted]
  | some documentTypes =>
      cases isEmbedded : field.embedded? with
      | none => simp [checkDocumentType, isWanted, isEmbedded]
      | some nested =>
          simp [checkDocumentType, isWanted, isEmbedded, DocumentType.derivesFromAny]

theorem checkVirtual_eq_ok_iff (path : String) :
    constraints.checkVirtual path field = .ok () ↔
      ∀ isVirtual, constraints.isVirtual = some isVirtual → field.isVirtual = isVirtual := by
  cases isWanted : constraints.isVirtual <;> simp [checkVirtual, isWanted]

/-! ## All conditions -/

theorem isMetBy_iff : constraints.isMetBy field = true ↔ constraints.Admits field := by
  obtain ⟨types, documentTypes, isVirtual⟩ := constraints
  rw [admits_iff, isMetBy, Bool.and_eq_true, Bool.and_eq_true, and_assoc]
  refine and_congr ?_ (and_congr ?_ ?_)
  · cases types <;> simp [FieldType.isSubtypeOfAny]
  · cases documentTypes with
    | none => simp
    | some documentTypes =>
        cases field.embedded? <;> simp [DocumentType.derivesFromAny]
  · cases isVirtual <;> simp [eq_comm]

theorem admits_of_isEmpty (isEmpty : constraints.isEmpty = true) (field : Field) :
    constraints.Admits field := by
  simp only [Constraints.isEmpty, Bool.and_eq_true, Option.isNone_iff_eq_none] at isEmpty
  obtain ⟨⟨noTypes, noDocumentTypes⟩, noFlag⟩ := isEmpty
  constructor <;> simp [noTypes, noDocumentTypes, noFlag]

/-- The check succeeds exactly for the fields that are admitted, wherever they are. -/
theorem check_eq_ok_iff (path : Option String) :
    constraints.check path (some field) = .ok () ↔ constraints.Admits field := by
  rw [check]
  split
  · next isEmpty => exact iff_of_true rfl (admits_of_isEmpty isEmpty field)
  · show ((constraints.checkType _ field).bind fun _ =>
      (constraints.checkDocumentType _ field).bind fun _ =>
        constraints.checkVirtual _ field) = .ok () ↔ _
    simp only [bind_eq_ok_iff, Unique.exists_iff, PUnit.default_eq_unit, checkType_eq_ok_iff,
      checkDocumentType_eq_ok_iff, checkVirtual_eq_ok_iff, admits_iff]

theorem check_eq_ok_iff_isMetBy (path : Option String) :
    constraints.check path (some field) = .ok () ↔ constraints.isMetBy field = true :=
  (check_eq_ok_iff path).trans isMetBy_iff.symm

theorem isOk_check (path : Option String) :
    (constraints.check path (some field)).isOk = constraints.isMetBy field := by
  rw [Bool.eq_iff_iff, ← check_eq_ok_iff_isMetBy path]
  cases constraints.check path (some field) <;> simp [Except.isOk, Except.toBool]

/-! ## Well-formed constraints -/

/-- Validation reports whether there are constraints. -/
theorem isConstrained_of_validate {isConstrained : Bool}
    (isWellFormed : constraints.validate = .ok isConstrained) :
    isConstrained = !constraints.isEmpty := by
  unfold validate at isWellFormed
  extract_lets faultOfTypes at isWellFormed
  clear_value faultOfTypes
  split at isWellFormed
  · contradiction
  · split at isWellFormed
    · contradiction
    · exact (Except.ok.inj isWellFormed).symm

end Constraints

namespace Schema

variable {schema : Schema}

theorem isEmpty_constraintsBefore {query : Query} (isEmpty : query.constraints.isEmpty = true) :
    query.constraintsBefore.isEmpty = true := by
  unfold Query.constraintsBefore
  split
  · exact isEmpty
  · rfl

/-- What is skipped where nothing is constrained would have let all fields through. -/
theorem filter_of_validate {query : Query} {isConstrained : Bool}
    (isWellFormed : query.constraints.validate = .ok isConstrained) :
    schema.filter query =
      let kept : Schema := List.filter (fun entry => (query.includePrivate || !isPrivate entry.1)
        && query.constraintsBefore.isMetBy entry.2) schema
      if query.flat then kept.flatten query.constraintsAfter query.includePrivate
      else .ok kept := by
  cases isConstrained with
  | true => simp [filter, isWellFormed, Except.bind]
  | false =>
      have isEmpty := Constraints.isConstrained_of_validate isWellFormed
      have isMet : ∀ field, query.constraintsBefore.isMetBy field = true := fun field =>
        Constraints.isMetBy_iff.mpr <| Constraints.admits_of_isEmpty
          (isEmpty_constraintsBefore (by simpa using isEmpty.symm)) field
      cases isOpen : query.includePrivate <;>
        simp [filter, isWellFormed, Except.bind, isMet, isOpen]

/-- A query that is not flattened applies its constraints, whatever its mode. -/
theorem filter_eq_ok {constraints : Constraints} {isConstrained : Bool}
    (isWellFormed : constraints.validate = .ok isConstrained) (showPrivate : Bool)
    (mode : Option FlattenMode) :
    schema.filter ⟨constraints, showPrivate, false, mode⟩ =
      .ok (List.filter (fun entry => (showPrivate || !isPrivate entry.1) &&
        constraints.isMetBy entry.2) schema) := by
  let query : Query := ⟨constraints, showPrivate, false, mode⟩
  exact filter_of_validate (show query.constraints.validate = _ from isWellFormed)

/-- A field passes the check exactly if it meets the constraints, whatever path is reported.  A
query that is not flattened fails exactly as its constraints are malformed; otherwise it keeps, in
order, the fields that are shown and pass the check. -/
theorem filter_keeps_checked (constraints : Constraints) :
    (∀ field path, constraints.check path (some field) = .ok () ↔
      constraints.isMetBy field = true) ∧
    ∀ (schema : Schema) (showPrivate : Bool) (mode : Option FlattenMode),
      (∀ error, schema.filter ⟨constraints, showPrivate, false, mode⟩ = .error error ↔
        constraints.validate = .error error) ∧
      ∀ isConstrained, constraints.validate = .ok isConstrained →
        ∀ path : String → Option String,
          schema.filter ⟨constraints, showPrivate, false, mode⟩ =
            .ok (List.filter (fun entry => (showPrivate || !isPrivate entry.1) &&
              (constraints.check (path entry.1) (some entry.2)).isOk) schema) := by
  refine ⟨fun field path => ?_, fun schema showPrivate mode => ⟨fun error => ?_, ?_⟩⟩
  · exact Constraints.check_eq_ok_iff_isMetBy path
  · cases isWellFormed : constraints.validate with
    | error fault => simp [filter, isWellFormed, Except.bind]
    | ok isConstrained => simp [filter_eq_ok isWellFormed]
  · intro isConstrained isWellFormed path
    simp only [Constraints.isOk_check]
    exact filter_eq_ok isWellFormed showPrivate mode

end Schema

/-- Cars, one of them private, beside a number of them and a list of them. -/
def garage : Schema :=
  let car : DocumentType := ⟨"Car", some ⟨"Vehicle", none, []⟩, []⟩
  [("car", .embedded "car" car), ("_spare", .embedded "_spare" car), ("count", .int "count"),
    ("others", .embeddedList "others" car)]

theorem filter_keeps_checked_garage :
    let constraints : Constraints :=
      ⟨some [.embeddedDocument], some [⟨"Vehicle", none, []⟩], some false⟩
    constraints.validate = .ok true ∧
      garage.filter ⟨constraints, false, false, some .after⟩ =
        .ok (List.filter (fun entry => (false || !isPrivate entry.1) &&
          (constraints.check none (some entry.2)).isOk) garage) :=
  ⟨rfl, ((Schema.filter_keeps_checked _).2 garage false (some .after)).2 true rfl fun _ => none⟩

example :
    let query (types : Option (List FieldType)) (includePrivate : Bool) : Query :=
      ⟨⟨types, some [⟨"Vehicle", none, []⟩], some false⟩, includePrivate, false, none⟩
    Except.map Mapping.keys (garage.filter (query (some [.embeddedDocument]) true)) =
        .ok ["car", "_spare"] ∧
      Except.map Mapping.keys (garage.filter (query none false)) = .ok ["car"] ∧
      garage.filter (query (some []) false) = .error (.constraint .noFieldTypes) :=
  ⟨rfl, rfl, rfl⟩

end SchemaTree
