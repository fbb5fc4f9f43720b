import SchemaTree.FieldType

/-!
The order of field types: every type is a subtype of itself, and of what its supertypes are
subtypes of.
-/

namespace SchemaTree.FieldType

variable {type middle other : FieldType}

theorem isSubtypeOf_iff : type.isSubtypeOf other = true ↔ other ∈ type.ancestors :=
  List.contains_iff_mem

theorem isSubtypeOf_self (type : FieldType) : type.isSubtypeOf type = true := by
  rw [isSubtypeOf_iff, ancestors_eq]
  exact List.mem_cons_self

theorem ancestors_subset (isAncestor : middle ∈ type.ancestors) :
    middle.ancestors ⊆ type.ancestors := by
  revert middle
  cases type <;> decide

theorem isSubtypeOf_trans (first : type.isSubtypeOf middle = true)
    (second : middle.isSubtypeOf other = true) : type.isSubtypeOf other = true := by
  rw [isSubtypeOf_iff] at first second ⊢
  exact ancestors_subset first second

/-- Embedded documents have no subtypes, and only the root as a supertype. -/
theorem isSubtypeOf_embeddedDocument (isSubtype : type.isSubtypeOf other = true)
    (notRoot : other ≠ .field) : type = .embeddedDocument ↔ other = .embeddedDocument := by
  rw [isSubtypeOf_iff] at isSubtype
  revert other
  cases type <;> decide

end SchemaTree.FieldType
