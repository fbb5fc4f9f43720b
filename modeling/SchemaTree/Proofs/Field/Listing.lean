import SchemaTree.Proofs.Field.Nested
import SchemaTree.Proofs.Mapping

/-!
The fields of a mapping and all fields below them, listed by the names that lead to them, depth
first.  If the names are distinct at every level, so are the rows of names.
-/

namespace SchemaTree

mutual

/-- The names of the fields below a field, depth first. -/
def Field.rowsBelow : Field → List (List String)
  | ⟨_, .embedded nested⟩ => nested.rows
  | ⟨_, .list _ (some ⟨_, .embedded nested⟩)⟩ => nested.rows
  | ⟨_, .dict _ (some ⟨_, .embedded nested⟩)⟩ => nested.rows
  | _ => []
  termination_by structural field => field

def Embedded.rows : Embedded → List (List String)
  | ⟨_, _, _, fields, _⟩ => entryRows fields
  termination_by structural nested => nested

/-- The names of the fields of a mapping and of all fields below them, depth first. -/
def entryRows : List (String × Field) → List (List String)
  | [] => []
  | (name, field) :: rest =>
      [name] :: (field.rowsBelow.map fun names => name :: names) ++ entryRows rest
  termination_by structural fields => fields

end

/-- Whether the names of a mapping are distinct and have no dot. -/
structure DotFree (fields : List (String × Field)) : Prop where
  distinct : (Mapping.keys fields).Nodup
  dotFree : ∀ name ∈ Mapping.keys fields, '.' ∉ name.toList

theorem DotFree.fresh {entry : String × Field} {rest : List (String × Field)}
    (dotFree : DotFree (entry :: rest)) : entry.1 ∉ Mapping.keys rest :=
  (List.nodup_cons.mp dotFree.distinct).1

theorem DotFree.tail {entry : String × Field} {rest : List (String × Field)}
    (dotFree : DotFree (entry :: rest)) : DotFree rest :=
  ⟨dotFree.distinct.of_cons, fun name isKey => dotFree.dotFree name (.tail _ isKey)⟩

variable {field : Field} {nested : Embedded} {fields : List (String × Field)} {names : List String}

theorem Field.Holds.rowsBelow_eq (holds : field.Holds nested) :
    field.rowsBelow = entryRows nested.fields := by
  obtain ⟨documentType, declared, displaced, fields, view⟩ := nested
  cases holds <;> rfl

theorem Field.rowsBelow_of_nested?_eq_none (isPlain : field.nested? = none) :
    field.rowsBelow = [] := by
  obtain ⟨attributes, kind⟩ := field
  cases kind with
  | embedded nested => contradiction
  | list flavor element =>
      rcases element with - | ⟨inner, kind⟩
      · rfl
      · cases kind <;> first | rfl | contradiction
  | dict flavor element =>
      rcases element with - | ⟨inner, kind⟩
      · rfl
      · cases kind <;> first | rfl | contradiction
  | _ => rfl

theorem mem_entryRows_cons_iff {name : String} {rest : List (String × Field)} :
    names ∈ entryRows ((name, field) :: rest) ↔
      names = [name] ∨ (∃ below ∈ field.rowsBelow, name :: below = names) ∨
        names ∈ entryRows rest := by
  rw [entryRows, List.cons_append, List.mem_cons, List.mem_append, List.mem_map]

theorem Field.mem_rowsBelow_iff :
    names ∈ field.rowsBelow ↔ ∃ nested, field.Holds nested ∧ names ∈ entryRows nested.fields := by
  cases isNested : field.nested? with
  | none =>
      rw [field.rowsBelow_of_nested?_eq_none isNested]
      simp [← nested?_eq_some_iff, isNested]
  | some nested =>
      have holds := nested?_eq_some_iff.mp isNested
      rw [holds.rowsBelow_eq]
      simp [← nested?_eq_some_iff, isNested]

theorem exists_head_of_mem_entryRows (isRow : names ∈ entryRows fields) :
    ∃ name ∈ Mapping.keys fields, ∃ below, names = name :: below := by
  induction fields with
  | nil => contradiction
  | cons entry rest inductionHypothesis =>
      obtain ⟨name, field⟩ := entry
      rcases mem_entryRows_cons_iff.mp isRow with rfl | ⟨below, _, rfl⟩ | isLater
      · exact ⟨name, .head _, [], rfl⟩
      · exact ⟨name, .head _, below, rfl⟩
      · obtain ⟨other, isKey, below, rfl⟩ := inductionHypothesis isLater
        exact ⟨other, .tail _ isKey, below, rfl⟩

/-- The listing has every row of names once. -/
theorem nodup_entryRows (fields : List (String × Field)) (everyLevel : EveryLevel DotFree fields) :
    (entryRows fields).Nodup := by
  match fields with
  | [] => exact List.nodup_nil
  | (name, field) :: rest =>
      have later := nodup_entryRows rest (everyLevel.tail everyLevel.1.tail)
      have isBelow : field.rowsBelow.Nodup ∧ [] ∉ field.rowsBelow := by
        cases isNested : field.nested? with
        | none =>
            rw [field.rowsBelow_of_nested?_eq_none isNested]
            exact ⟨List.nodup_nil, List.not_mem_nil⟩
        | some nested =>
            have holds := Field.nested?_eq_some_iff.mp isNested
            have smaller := holds.sizeOf_lt
            rw [holds.rowsBelow_eq]
            refine ⟨nodup_entryRows nested.fields (everyLevel.below (.head _) holds), ?_⟩
            intro isEmpty
            obtain ⟨_, _, _, same⟩ := exists_head_of_mem_entryRows isEmpty
            contradiction
      rw [entryRows, List.nodup_append, List.nodup_cons]
      refine ⟨⟨?_, isBelow.1.map (List.cons_injective)⟩, later, ?_⟩
      · simpa using isBelow.2
      · rintro names isHere _ isLater rfl
        obtain ⟨other, isKey, below, rfl⟩ := exists_head_of_mem_entryRows isLater
        have same : other = name := by
          rcases List.mem_cons.mp isHere with same | isMapped
          · exact (List.cons.inj same).1
          · obtain ⟨_, _, same⟩ := List.mem_map.mp isMapped
            exact (List.cons.inj same).1.symm
        exact everyLevel.1.fresh (same ▸ isKey)
termination_by sizeOf fields

/-- Every name of the listing is the name of a field, and so it has no dot if none of these has. -/
theorem dotFree_of_mem_entryRows (fields : List (String × Field))
    (everyLevel : EveryLevel DotFree fields) {names : List String}
    (isRow : names ∈ entryRows fields) : ∀ name ∈ names, '.' ∉ name.toList := by
  match fields with
  | (name, field) :: rest =>
      have first : '.' ∉ name.toList := everyLevel.1.dotFree name (.head _)
      rcases mem_entryRows_cons_iff.mp isRow with rfl | ⟨below, isBelow, rfl⟩ | isLater
      · exact List.forall_mem_singleton.mpr first
      · obtain ⟨nested, holds, isNested⟩ := Field.mem_rowsBelow_iff.mp isBelow
        have smaller := holds.sizeOf_lt
        exact List.forall_mem_cons.mpr ⟨first,
          dotFree_of_mem_entryRows nested.fields (everyLevel.below (.head _) holds) isNested⟩
      · exact dotFree_of_mem_entryRows rest (everyLevel.tail everyLevel.1.tail) isLater
termination_by sizeOf fields

end SchemaTree
