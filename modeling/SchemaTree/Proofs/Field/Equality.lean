import SchemaTree.Field.Equality
import SchemaTree.Proofs.Field.Everywhere
import SchemaTree.Proofs.Provenance

/-!
Equality of fields.  A mapping agrees with another if each of its names holds equal fields in both,
and a coherent field that is detached equals itself, unless a bound is no number.
-/

namespace SchemaTree

/-- The bounds of a field, if it has any, are numbers. -/
def Field.HasNumericBounds (field : Field) : Prop :=
  ∀ least greatest, field.kind = .float least greatest →
    (∀ bound, least = some bound → bound.isNaN = false) ∧
      ∀ bound, greatest = some bound → bound.isNaN = false

theorem equalOptions_self {α : Type} {equal : α → α → Bool} {value : Option α}
    (reflexive : ∀ inner, value = some inner → equal inner inner = true) :
    equalOptions equal value value = true := by
  cases value with
  | none => rfl
  | some inner => exact reflexive inner rfl

theorem entriesWithin_iff {fields others : List (String × Field)} :
    entriesWithin fields others = true ↔ ∀ entry ∈ fields,
      ∃ other, Mapping.lookup others entry.1 = some other ∧ entry.2.equal other = true := by
  induction fields with
  | nil => exact ⟨fun _ _ isEntry => absurd isEntry List.not_mem_nil, fun _ => rfl⟩
  | cons entry rest inductionHypothesis =>
      obtain ⟨name, field⟩ := entry
      rw [entriesWithin, Bool.and_eq_true, inductionHypothesis, List.forall_mem_cons]
      refine and_congr_left fun _ => ?_
      cases Mapping.lookup others name with
      | none =>
          constructor
          · intro isFalse
            contradiction
          · rintro ⟨other, isFound, _⟩
            contradiction
      | some other =>
          constructor
          · intro same
            exact ⟨other, rfl, same⟩
          · rintro ⟨found, isFound, same⟩
            rw [Option.some.inj isFound]
            exact same

/-- A payload without a view equals another one under a binding if its parts do. -/
theorem Embedded.equal_rebind {left right : Embedded} (binding : Option Binding)
    (leftUnviewed : left.view = none) (rightUnviewed : right.view = none)
    (type : left.documentType.name = right.documentType.name)
    (declared : left.declared = right.declared) (displaced : left.displaced = right.displaced)
    (length : left.fields.length = right.fields.length)
    (within : entriesWithin left.fields (rebindEntries binding right.fields) = true) :
    left.equal (right.rebind binding) = true := by
  obtain ⟨leftType, leftDeclared, leftDisplaced, leftFields, leftView⟩ := left
  obtain ⟨rightType, rightDeclared, rightDisplaced, rightFields, rightView⟩ := right
  cases leftUnviewed
  cases rightUnviewed
  have sameLength : leftFields.length = (rebindEntries binding rightFields).length := by
    rw [length_rebindEntries]
    exact length
  rw [Embedded.rebind, Embedded.equal]
  simp only [Bool.and_eq_true, decide_eq_true_eq]
  exact ⟨⟨⟨⟨⟨type, declared⟩, displaced⟩, sameLength⟩, within⟩, rfl⟩

theorem Attributes.equal_rebind_self {attributes : Attributes}
    (wellFormed : attributes.WellFormed) (binding : Option Binding) :
    (attributes.rebind binding).equal (attributes.rebind binding) = true := by
  have sameInfo : equalOptions Json.equalMembers attributes.info attributes.info = true :=
    equalOptions_self fun members isInfo => (wellFormed.info members isInfo).equal_self
  have sameExpression : equalOptions Expression.equal (attributes.rebind binding).expression
      (attributes.rebind binding).expression = true := by
    apply equalOptions_self
    intro expression isExpression
    obtain ⟨compiled, isCompiled, rfl⟩ := Option.map_eq_some_iff.mp isExpression
    have sameSource := (wellFormed.expression compiled isCompiled).equal_self
    rw [Expression.equal, Bool.and_eq_true]
    exact ⟨sameSource, rfl⟩
  unfold Attributes.equal
  rw [sameExpression]
  simp [Attributes.rebind, sameInfo]

theorem Kind.equal_self_of_isScalar {kind : Kind} (isScalar : kind.isScalar = true)
    (numeric : ∀ least greatest, kind = .float least greatest →
      (∀ bound, least = some bound → bound.isNaN = false) ∧
        ∀ bound, greatest = some bound → bound.isNaN = false) : kind.equal kind = true := by
  cases kind with
  | float least greatest =>
      obtain ⟨leastNumeric, greatestNumeric⟩ := numeric least greatest rfl
      rw [Kind.equal, Bool.and_eq_true]
      exact ⟨equalOptions_self fun bound isBound =>
          (Binary64.equal_self_iff bound).mpr (leastNumeric bound isBound),
        equalOptions_self fun bound isBound =>
          (Binary64.equal_self_iff bound).mpr (greatestNumeric bound isBound)⟩
  | geo geometry => exact decide_eq_true rfl
  | list flavor element => contradiction
  | dict flavor element => contradiction
  | embedded nested => contradiction
  | _ => rfl

/-- A coherent field without a bound that is no number equals itself under any binding. -/
theorem Field.Coherent.equal_rebind_self {field : Field} (coherent : field.Coherent)
    (numeric : field.Everywhere HasNumericBounds) (binding : Option Binding) :
    (field.rebind binding).equal (field.rebind binding) = true := by
  induction coherent generalizing binding with
  | @scalar attributes kind wellFormed isScalar =>
      rw [Field.rebind, Kind.rebind_of_isScalar isScalar, Field.equal, Bool.and_eq_true]
      exact ⟨Attributes.equal_rebind_self wellFormed binding,
        Kind.equal_self_of_isScalar isScalar numeric.here⟩
  | untypedList wellFormed fits =>
      rw [Field.rebind, Field.equal, Bool.and_eq_true]
      exact ⟨Attributes.equal_rebind_self wellFormed binding, decide_eq_true rfl⟩
  | list wellFormed fits named coherent inductionHypothesis =>
      rw [Field.rebind, Field.equal, Bool.and_eq_true, Kind.rebind, Kind.equal, Bool.and_eq_true]
      exact ⟨Attributes.equal_rebind_self wellFormed binding, decide_eq_true rfl,
        inductionHypothesis (numeric.element rfl) binding⟩
  | untypedDict flavor wellFormed =>
      rw [Field.rebind, Field.equal, Bool.and_eq_true]
      exact ⟨Attributes.equal_rebind_self wellFormed binding, decide_eq_true rfl⟩
  | dict flavor wellFormed named coherent inductionHypothesis =>
      rw [Field.rebind, Field.equal, Bool.and_eq_true, Kind.rebind, Kind.equal, Bool.and_eq_true]
      exact ⟨Attributes.equal_rebind_self wellFormed binding, decide_eq_true rfl,
        inductionHypothesis (numeric.element rfl) binding⟩
  | @embedded attributes nested wellFormed unviewed consistent each inductionHypothesis =>
      obtain ⟨type, declared, displaced, fields, view⟩ := nested
      cases unviewed
      have within : entriesWithin (rebindEntries binding fields) (rebindEntries binding fields) =
          true := by
        rw [entriesWithin_iff]
        intro entry isEntry
        have distinct : (Mapping.keys (rebindEntries binding fields)).Nodup :=
          keys_rebindEntries binding fields ▸ consistent.distinct
        have isFound := Mapping.lookup_of_mem distinct isEntry
        refine ⟨entry.2, isFound, ?_⟩
        rw [lookup_rebindEntries] at isFound
        obtain ⟨before, wasFound, same⟩ := Option.map_eq_some_iff.mp isFound
        rw [← same]
        exact inductionHypothesis entry.1 before wasFound
          (numeric.member rfl (Mapping.mem_of_lookup wasFound)) _
      rw [Field.rebind, Field.equal, Bool.and_eq_true, Kind.rebind, Kind.equal]
      exact ⟨Attributes.equal_rebind_self wellFormed binding,
        Embedded.equal_rebind binding rfl rfl rfl rfl rfl
          (length_rebindEntries binding fields) within⟩

end SchemaTree
