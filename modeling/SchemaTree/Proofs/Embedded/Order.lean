import SchemaTree.Proofs.Embedded.Edits

/-!
The order of the names of an embedded document.  Whatever the run of edits, the defaults that hold
their place come first.  The declared names follow in the order of their declaration, unless a
declared field is renamed: the new name takes the place of the old one among the declared names,
but goes to the end of the mapping.
-/

namespace SchemaTree

/-- The name that an edit takes from its place. -/
def Edit.gone : Edit → String
  | declare _ _ field => field.name
  | rename _ old _ _ => old
  | remove name => name

/-- The names that an edit puts at the end. -/
def Edit.added : Edit → List String
  | declare _ _ field | rename _ _ _ field => [field.name]
  | remove _ => []

namespace Embedded

/-- The defaults that hold their place, in the order of the document type. -/
def placed (nested : Embedded) : List String :=
  (Mapping.keys nested.documentType.fields).filter fun name => !nested.displaced.contains name

/-- The declared names that do not take the place of a default, in the order of their
declaration. -/
def trailing (nested : Embedded) : List String :=
  Mapping.firstMentions nested.placed nested.declared

/-- Whether the declared names that do not take the place of a default come in the order of their
declaration. -/
def InOrder (nested : Embedded) : Prop :=
  nested.trailing.Sublist (Mapping.keys nested.fields)

/-- Whether an edit does not rename a declared field. -/
def Appends (nested : Embedded) : Edit → Prop
  | .rename _ old _ _ => old ∉ nested.declared
  | .declare _ _ _ | .remove _ => True

/-- Whether no edit of a run renames a field that is declared then. -/
def AppendsAll (nested : Embedded) : List Edit → Prop
  | [] => True
  | edit :: rest => nested.Appends edit ∧ (nested.apply edit).AppendsAll rest

variable {nested : Embedded}

theorem mem_placed {name : String} :
    name ∈ nested.placed ↔
      name ∈ Mapping.keys nested.documentType.fields ∧ name ∉ nested.displaced := by
  rw [placed, List.mem_filter, Bool.not_eq_true', ← Bool.not_eq_true, List.contains_iff_mem]

theorem Consistent.mem_keys_of_placed (consistent : nested.Consistent) {name : String}
    (isPlaced : name ∈ nested.placed) : name ∈ Mapping.keys nested.fields :=
  (consistent.names name).mpr (.inr (mem_placed.mp isPlaced))

/-! ## Built payloads -/

section Build

variable (type : DocumentType) (fields : List Field) (displaced : List String)

theorem keys_keptDefaults :
    Mapping.keys (keptDefaults type fields displaced) = (build type fields displaced).placed := by
  rw [placed, Mapping.keys, Mapping.keys, List.filter_map]
  rfl

theorem keys_build :
    Mapping.keys (build type fields displaced).fields =
      (build type fields displaced).placed ++ (build type fields displaced).trailing := by
  rw [fields_build, Mapping.keys_extend, keys_keptDefaults, Field.keys_copies]
  rfl

theorem inOrder_build : (build type fields displaced).InOrder := by
  rw [InOrder, keys_build]
  exact List.sublist_append_right _ _

theorem placed_prefix_build :
    (build type fields displaced).placed <+: Mapping.keys (build type fields displaced).fields := by
  rw [keys_build]
  exact List.prefix_append _ _

end Build

/-! ## Single edits -/

/-- How an edit moves names: one leaves the defaults that hold their place, the fields and, unless
a declared field is renamed, the declared names; the added ones go to the end. -/
structure Moves (nested : Embedded) (edit : Edit) (after : Embedded) : Prop where
  placed : after.placed = nested.placed.filter (· ≠ edit.gone)
  keys : Mapping.keys after.fields =
    (Mapping.keys nested.fields).filter (· ≠ edit.gone) ++ edit.added
  declared : nested.Appends edit →
    after.declared = nested.declared.filter (· ≠ edit.gone) ++ edit.added

theorem placed_of_displaced {after : Embedded} {gone : String}
    (type : after.documentType = nested.documentType)
    (still : ∀ name ∈ nested.displaced, name ∈ after.displaced)
    (leaves : ∀ name ∈ nested.placed, name ∈ after.displaced ↔ name = gone) :
    after.placed = nested.placed.filter (· ≠ gone) := by
  have same : ∀ name, name ∈ Mapping.keys nested.documentType.fields →
      (!after.displaced.contains name) =
        (decide (name ≠ gone) && !nested.displaced.contains name) := by
    intro name isDefault
    rw [Bool.eq_iff_iff, Bool.and_eq_true, decide_eq_true_eq]
    simp only [Bool.not_eq_true', ← Bool.not_eq_true, List.contains_iff_mem]
    constructor
    · intro stays
      have before : name ∉ nested.displaced := fun isDisplaced => stays (still name isDisplaced)
      have isPlaced : name ∈ nested.placed := mem_placed.mpr ⟨isDefault, before⟩
      exact ⟨fun isGone => stays ((leaves name isPlaced).mpr isGone), before⟩
    · rintro ⟨different, before⟩ isDisplaced
      exact different ((leaves name (mem_placed.mpr ⟨isDefault, before⟩)).mp isDisplaced)
  rw [placed, placed, type, List.filter_filter]
  exact List.filter_congr same

theorem displaced_displace_subset (nested : Embedded) (name : String) :
    ∀ other ∈ nested.displaced, other ∈ (nested.displace name).displaced :=
  fun other isDisplaced => (nested.mem_displaced_displace name other).mpr (.inl isDisplaced)

theorem leaves_displace {name gone : String} (isPlaced : name ∈ nested.placed) :
    name ∈ (nested.displace gone).displaced ↔ name = gone := by
  obtain ⟨isDefault, before⟩ := mem_placed.mp isPlaced
  rw [mem_displaced_displace, or_iff_right before, and_iff_left isDefault]

/-- A declared name that is new to the fields goes to the end of the declared names. -/
theorem renameDeclared_of_notMem {declared : List String} {old new : String}
    (undeclared : old ∉ declared) (fresh : new ∈ declared → new = old) :
    renameDeclared declared old new = declared.filter (· ≠ old) ++ [new] := by
  have isNew : new ∉ declared := fun isDeclared => undeclared (fresh isDeclared ▸ isDeclared)
  have whole : declared.filter (· ≠ old) = declared := by
    refine List.filter_eq_self.mpr ?_
    intro name isDeclared
    rw [decide_eq_true_eq]
    rintro rfl
    exact undeclared isDeclared
  have noOld : ¬declared.contains old = true := by rwa [List.contains_iff_mem]
  have noNew : ¬declared.contains new = true := by rwa [List.contains_iff_mem]
  unfold renameDeclared
  rw [if_neg noOld, if_neg noNew]
  by_cases same : new = old
  · rw [if_pos same, whole]
  · rw [if_neg same, List.filter_append, List.filter_cons_of_pos (by simpa using same),
      List.filter_nil]

/-- An edit that succeeds moves names. -/
theorem moves_apply (consistent : nested.Consistent) (edit : Edit) :
    nested.apply edit = nested ∨ nested.Moves edit (nested.apply edit) := by
  cases edit with
  | declare dataset path field =>
      refine (nested.apply_declare dataset path field).imp_right fun same => ?_
      rw [same]
      refine ⟨placed_of_displaced rfl ?_ ?_, ?_, fun _ => rfl⟩
      · exact nested.displaced_displace_subset field.name
      · exact fun name isPlaced => leaves_displace isPlaced
      · rw [Mapping.keys_append, Mapping.keys_erase]
        rfl
  | rename dataset old path field =>
      refine (nested.apply_rename dataset old path field).imp_right ?_
      rintro ⟨fresh, same⟩
      rw [same]
      refine ⟨placed_of_displaced rfl ?_ ?_, ?_, ?_⟩
      · intro name isDisplaced
        apply displaced_displace_subset
        exact nested.displaced_displace_subset old name isDisplaced
      · intro name isPlaced
        show name ∈ ((nested.displace old).displace field.name).displaced ↔ name = old
        rw [mem_displaced_displace, leaves_displace isPlaced, or_iff_left_iff_imp]
        -- A default that holds its place is a field, and a new name is none but the old one.
        rintro ⟨rfl, _⟩
        exact fresh (consistent.mem_keys_of_placed isPlaced)
      · rw [Mapping.keys_append, Mapping.keys_erase]
        rfl
      · intro undeclared
        apply renameDeclared_of_notMem undeclared
        exact fun isDeclared => fresh ((consistent.names _).mpr (.inl isDeclared))
  | remove name =>
      refine (nested.apply_remove name).imp_right fun same => ?_
      rw [same]
      refine ⟨placed_of_displaced rfl ?_ ?_, ?_, ?_⟩
      · exact nested.displaced_displace_subset name
      · exact fun other isPlaced => leaves_displace isPlaced
      · rw [Mapping.keys_erase]
        exact (List.append_nil _).symm
      · exact fun _ => (List.append_nil _).symm

theorem placed_prefix_apply (consistent : nested.Consistent)
    (first : nested.placed <+: Mapping.keys nested.fields) (edit : Edit) :
    (nested.apply edit).placed <+: Mapping.keys (nested.apply edit).fields := by
  rcases moves_apply consistent edit with same | moves
  · rw [same]
    exact first
  · rw [moves.placed, moves.keys]
    exact (first.filter _).trans (List.prefix_append _ _)

theorem InOrder.apply (inOrder : nested.InOrder) (consistent : nested.Consistent) {edit : Edit}
    (appends : nested.Appends edit) : (nested.apply edit).InOrder := by
  rcases moves_apply consistent edit with same | moves
  · rw [same]
    exact inOrder
  · have leaves : ∀ name, name ≠ edit.gone →
        (name ∈ nested.placed.filter (· ≠ edit.gone) ↔ name ∈ nested.placed) := by
      intro name different
      rw [List.mem_filter, decide_eq_true_eq]
      exact and_iff_left different
    rw [InOrder, trailing, moves.placed, moves.declared appends, moves.keys]
    refine (Mapping.firstMentions_append_sublist _ _ _).trans ?_
    rw [Mapping.firstMentions_filter leaves]
    exact (inOrder.filter _).append (List.Sublist.refl _)

/-! ## Runs -/

/-- The defaults that hold their place come first after any run. -/
theorem placed_prefix_run (consistent : nested.Consistent)
    (first : nested.placed <+: Mapping.keys nested.fields) (edits : List Edit) :
    (nested.run edits).placed <+: Mapping.keys (nested.run edits).fields := by
  unfold run
  induction edits generalizing nested with
  | nil => exact first
  | cons edit rest inductionHypothesis =>
      exact inductionHypothesis (consistent.apply edit) (placed_prefix_apply consistent first edit)

/-- Runs that do not rename declared fields keep the order of declaration. -/
theorem InOrder.run (inOrder : nested.InOrder) (consistent : nested.Consistent)
    {edits : List Edit} (appends : nested.AppendsAll edits) : (nested.run edits).InOrder := by
  unfold Embedded.run
  induction edits generalizing nested with
  | nil => exact inOrder
  | cons edit rest inductionHypothesis =>
      exact inductionHypothesis (inOrder.apply consistent appends.1) (consistent.apply edit)
        appends.2

end Embedded

end SchemaTree
