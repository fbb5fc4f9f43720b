import SchemaTree.Proofs.Field.Binding
import SchemaTree.Proofs.FieldType
import SchemaTree.Proofs.Merge

/-!
Fields to which a merge has nothing to add.  Every field absorbs an attached or detached copy of
itself, and what a field absorbs stays so if its document comes to absorb more.
-/

namespace SchemaTree

/-- Whether the names of a mapping are distinct and valid, and every field has the name under which
it stands. -/
structure OwnNames (fields : List (String × Field)) : Prop where
  distinct : (Mapping.keys fields).Nodup
  named : ∀ entry ∈ fields, entry.2.name = entry.1 ∧ isFieldName entry.1 = true

/-- Whether merging an incoming field into an existing one succeeds and adds nothing. -/
inductive Absorbs (validate recursive : Bool) (existing incoming : Field) : Prop
  | pass (fits : validate = true → incoming.Fits existing)
      (isApart : recursive = true → Apart validate existing incoming)
  | enter {outer inner : Embedded} (isRecursive : recursive = true)
      (fits : validate = true → incoming.Fits existing)
      (counterparts : Counterparts existing incoming outer inner)
      (derives : validate = true → inner.documentType.isSubclassOf outer.documentType = true)
      (nested : Merges validate recursive outer.fields inner.fields [])

section Absorbs

variable {validate recursive : Bool}

theorem Merges.of_absorbs {existing incoming : List (String × Field)}
    (each : ∀ entry ∈ incoming, ∃ found, Mapping.lookup existing entry.1 = some found ∧
      Absorbs validate recursive found entry.2) :
    Merges validate recursive existing incoming [] := by
  induction incoming with
  | nil => exact .nil existing
  | cons entry rest inductionHypothesis =>
      rw [List.forall_mem_cons] at each
      obtain ⟨⟨found, isFound, absorbs⟩, others⟩ := each
      have merges := inductionHypothesis others
      cases absorbs with
      | pass fits isApart => exact .pass isFound fits isApart merges
      | enter isRecursive fits counterparts derives nested =>
          exact .enter isRecursive isFound fits counterparts derives nested merges

end Absorbs

/-! ## Copies -/

theorem Field.fits_rebind (field : Field) (binding : Option Binding) :
    field.Fits (field.rebind binding) := by
  refine .intro ?_ ?_ ?_
  · rw [type_rebind]
    exact FieldType.isSubtypeOf_self _
  · intro inner outer isInner isOuter
    rw [embedded?_rebind, isInner] at isOuter
    cases isOuter
    rw [Embedded.documentType_rebind]
    exact DocumentType.isSubclassOf_self _
  · intro inner outer isInner isOuter
    rw [element_rebind, isInner] at isOuter
    cases isOuter
    exact fits_rebind inner binding
termination_by sizeOf field
decreasing_by exact sizeOf_element_lt isInner

/-- Nothing is merged into a copy of a field that is not entered. -/
theorem mergeTarget?_rebind {field : Field} {binding : Option Binding}
    (unrelated : ∀ outer inner, ¬Counterparts (field.rebind binding) field outer inner) :
    mergeTarget? (field.rebind binding) field = none := by
  obtain ⟨attributes, kind⟩ := field
  cases kind with
  | embedded nested => exact absurd (.documents _ _ _ _) (unrelated _ _)
  | list flavor element =>
      rcases element with - | ⟨inner, kind⟩
      · cases flavor <;> rfl
      · cases kind with
        | embedded nested => exact absurd (.lists _ _ _ _ _ _ _ _) (unrelated _ _)
        | list _ element => cases flavor <;> cases element <;> rfl
        | dict _ element => cases flavor <;> cases element <;> rfl
        | _ => cases flavor <;> rfl
  | dict flavor element => cases flavor <;> cases element <;> rfl
  | geo geometry => cases geometry <;> rfl
  | _ => rfl

/-- Every field absorbs its copies. -/
theorem absorbs_rebind {validate recursive : Bool} (field : Field) (binding : Option Binding)
    (below : ∀ nested, field.Holds nested → EveryLevel OwnNames nested.fields) :
    Absorbs validate recursive (field.rebind binding) field := by
  by_cases related :
      recursive = true ∧ ∃ outer inner, Counterparts (field.rebind binding) field outer inner
  · obtain ⟨isRecursive, outer, inner, counterparts⟩ := related
    have holds := counterparts.right
    obtain rfl : outer = inner.rebind binding := counterparts.left.unique (holds.rebind binding)
    refine .enter isRecursive (fun _ => field.fits_rebind binding) counterparts ?_ ?_
    · intro _
      rw [Embedded.documentType_rebind]
      exact DocumentType.isSubclassOf_self _
    · rw [Embedded.fields_rebind]
      have everyLevel := below inner holds
      refine .of_absorbs fun entry isEntry => ?_
      refine ⟨entry.2.rebind (binding.map fun outer => outer.child entry.1), ?_, ?_⟩
      · rw [lookup_rebindEntries, Mapping.lookup_of_mem everyLevel.1.distinct isEntry,
          Option.map_some]
      · exact absorbs_rebind entry.2 _ fun nested isHeld => everyLevel.below isEntry isHeld
  · refine .pass (fun _ => field.fits_rebind binding) fun isRecursive => ?_
    have unrelated : ∀ outer inner, ¬Counterparts (field.rebind binding) field outer inner :=
      fun outer inner counterparts => related ⟨isRecursive, outer, inner, counterparts⟩
    exact ⟨unrelated,
      fun path => additions_of_mergeTarget?_eq_none (mergeTarget?_rebind unrelated)⟩
termination_by sizeOf field
decreasing_by exact holds.sizeOf_member_lt isEntry

/-! ## Changed documents -/

section Changed

variable {incoming existing : Field} {outer inner changed : Embedded}

theorem Counterparts.modifyNested (counterparts : Counterparts existing incoming outer inner)
    (changed : Embedded) :
    Counterparts (existing.modifyNested fun _ => changed) incoming changed inner := by
  cases counterparts with
  | documents => exact .documents _ _ _ _
  | lists => exact .lists _ _ _ _ _ _ _ _

theorem Field.Fits.document {attributes : Attributes}
    (fits : incoming.Fits ⟨attributes, .embedded outer⟩)
    (sameType : changed.documentType = outer.documentType) :
    incoming.Fits ⟨attributes, .embedded changed⟩ := by
  cases fits with
  | intro type documentType element =>
      refine .intro type ?_ nofun
      rintro inner _ isInner ⟨⟩
      rw [sameType]
      exact documentType inner outer isInner rfl

/-- What fits a field fits it with another document of the same type. -/
theorem Field.Fits.modifyNested (fits : incoming.Fits existing) (holds : existing.Holds outer)
    (sameType : changed.documentType = outer.documentType) :
    incoming.Fits (existing.modifyNested fun _ => changed) := by
  cases holds with
  | document => exact fits.document sameType
  | list =>
      cases fits with
      | intro type documentType element =>
          refine .intro type nofun ?_
          rintro inner _ isInner ⟨⟩
          exact (element inner _ isInner rfl).document sameType
  | dict =>
      cases fits with
      | intro type documentType element =>
          refine .intro type nofun ?_
          rintro inner _ isInner ⟨⟩
          exact (element inner _ isInner rfl).document sameType

end Changed

end SchemaTree
