import SchemaTree.Proofs.Embedded.Order
import SchemaTree.Proofs.Record.Reading

/-!
The order of the names of a payload that is rebuilt from its record.  A rebuilt payload has the
declared names in the order of their declaration; the order of the original differs from it
exactly if its declared names are out of that order, as they can be after a declared field was
renamed.
-/

namespace SchemaTree

namespace Embedded

variable {registry : Registry} {nested : Embedded} {rebuilts : List Field}

theorem placed_rebuild (consistent : nested.Consistent) :
    (nested.rebuild rebuilts).placed = nested.placed := by
  unfold placed
  rw [displaced_rebuild consistent]
  rfl

/-- The names of a rebuilt payload are determined by the declared and the displaced names. -/
theorem keys_rebuild (consistent : nested.Consistent)
    (areRead : nested.DeclaredAs (Field.ReadAs registry) rebuilts) :
    Mapping.keys (nested.rebuild rebuilts).fields = nested.placed ++ nested.trailing := by
  rw [trailing, ← declared_rebuild consistent areRead, ← @placed_rebuild nested rebuilts consistent]
  exact keys_build nested.documentType rebuilts nested.displaced

/-- If the defaults that hold their place come first, a rebuilt payload has the names in the same
order exactly if the declared names are in order. -/
theorem keys_rebuild_eq_iff (consistent : nested.Consistent)
    (first : nested.placed <+: Mapping.keys nested.fields)
    (areRead : nested.DeclaredAs (Field.ReadAs registry) rebuilts) :
    Mapping.keys (nested.rebuild rebuilts).fields = Mapping.keys nested.fields ↔
      nested.InOrder := by
  have permuted := keys_rebuild_perm consistent areRead
  rw [keys_rebuild consistent areRead] at permuted ⊢
  obtain ⟨rest, split⟩ := first
  rw [InOrder, ← split, List.append_cancel_left_eq]
  rw [← split, List.perm_append_left_iff] at permuted
  constructor
  · intro same
    rw [same]
    exact List.sublist_append_right _ _
  · intro inOrder
    obtain ⟨head, tail, same, inPlaced, inRest⟩ := List.sublist_append_iff.mp inOrder
    -- No trailing name holds the place of a default, so all of them come in the rest.
    have noHead : head = [] := by
      refine List.eq_nil_iff_forall_not_mem.mpr fun name inHead => ?_
      have mentioned : name ∈ nested.trailing := same ▸ List.mem_append_left tail inHead
      exact Mapping.notMem_of_mem_firstMentions mentioned (inPlaced.subset inHead)
    rw [noHead, List.nil_append] at same
    rw [same] at permuted ⊢
    exact inRest.eq_of_length permuted.length_eq

theorem exists_declaredAs (consistent : nested.Consistent) {attributes : Attributes}
    (resolves : registry.Resolves (Field.toRecord ⟨attributes, .embedded nested⟩)) :
    ∃ rebuilts, nested.DeclaredAs (Field.ReadAs registry) rebuilts := by
  apply exists_forall₂
  intro name isDeclared
  obtain ⟨field, isFound⟩ :=
    Mapping.mem_keys_iff.mp ((consistent.names name).mpr (.inl isDeclared))
  have inner : registry.Resolves field.toRecord := by
    obtain ⟨documentType, declared, displaced, fields, view⟩ := nested
    have isRecorded : Mapping.lookup (recordEntries fields) name = some field.toRecord := by
      rw [lookup_recordEntries, isFound, Option.map_some]
    intro typeName isNamed
    have isRecord := List.mem_filterMap.mpr ⟨name, isDeclared, isRecorded⟩
    exact resolves typeName (List.mem_append_right _ (Record.mem_typesOf isRecord isNamed))
  obtain ⟨rebuilt, isRead⟩ := field.exists_readAs registry inner
  exact ⟨rebuilt, field, isFound, isRead⟩

end Embedded

/-- A payload that was built and edited is rebuilt from its record with the same names.  They come
in the same order exactly if the declared names are in order, which they are if no declared field
was renamed. -/
theorem Field.order_toField_toRecord {registry : Registry} {type : DocumentType}
    (isBuilt : type.Built) {fields : List Field} {displaced : List String} {edits : List Edit}
    {nested : Embedded} (edited : nested = (Embedded.build type fields displaced).run edits)
    {attributes : Attributes} (known : registry.resolve type.name = .ok type)
    (resolves : registry.Resolves (toRecord ⟨attributes, .embedded nested⟩)) :
    ∃ rebuilt, (toRecord ⟨attributes, .embedded nested⟩).toField registry =
        .ok ⟨attributes.rebind none, .embedded rebuilt⟩ ∧
      Mapping.keys rebuilt.fields = nested.placed ++ nested.trailing ∧
      (Mapping.keys rebuilt.fields).Perm (Mapping.keys nested.fields) ∧
      (Mapping.keys rebuilt.fields = Mapping.keys nested.fields ↔ nested.InOrder) ∧
      ((Embedded.build type fields displaced).AppendsAll edits → nested.InOrder) := by
  have initial := Embedded.consistent_build fields displaced isBuilt.consistent
  have consistent : nested.Consistent := edited ▸ initial.run edits
  have first : nested.placed <+: Mapping.keys nested.fields :=
    edited ▸ Embedded.placed_prefix_run initial (Embedded.placed_prefix_build ..) edits
  have sameType : nested.documentType = type :=
    edited ▸ Embedded.documentType_run (Embedded.build type fields displaced) edits
  obtain ⟨rebuilts, areRead⟩ := Embedded.exists_declaredAs consistent resolves
  refine ⟨nested.rebuild rebuilts, ?_, Embedded.keys_rebuild consistent areRead,
    Embedded.keys_rebuild_perm consistent areRead,
    Embedded.keys_rebuild_eq_iff consistent first areRead, ?_⟩
  · rw [← sameType] at known
    exact readAs_embedded known (fieldsOf_recordEntries areRead)
  · intro appends
    rw [edited]
    exact (Embedded.inOrder_build type fields displaced).run initial appends

/-- Slots with a default of their own. -/
def slotType : DocumentType :=
  ⟨"Slot", none, [("x", .int "x")]⟩

/-- The default is renamed, and of two declared fields one is removed and one redeclared. -/
def slotEdits : List Edit :=
  [.rename none "x" "slots.y" (.int "y"), .remove "b", .declare none "slots.a" (.float "a")]

def slots : Embedded :=
  (Embedded.build slotType [.int "a", .int "b"] []).run slotEdits

theorem order_toField_toRecord_slots :
    (slotType.Built ∧ (Registry.mk [("Slot", slotType)]).resolve "Slot" = .ok slotType ∧
        (Registry.mk [("Slot", slotType)]).Resolves
          (Field.ofKind "slots" (.embedded slots)).toRecord) ∧
      ∃ rebuilt, (Field.ofKind "slots" (.embedded slots)).toRecord.toField
          ⟨[("Slot", slotType)]⟩ = .ok (Field.ofKind "slots" (.embedded rebuilt)) ∧
        Mapping.keys rebuilt.fields = slots.placed ++ slots.trailing ∧
        (Mapping.keys rebuilt.fields).Perm (Mapping.keys slots.fields) ∧
        (Mapping.keys rebuilt.fields = Mapping.keys slots.fields ↔ slots.InOrder) ∧
        ((Embedded.build slotType [.int "a", .int "b"] []).AppendsAll slotEdits →
          slots.InOrder) := by
  have isBuilt : slotType.Built := by
    have built : DocumentType.build "Slot" none [.int "x"] = .ok slotType := rfl
    exact .build built fun _ isParent => nomatch isParent
  have known : (Registry.mk [("Slot", slotType)]).resolve "Slot" = .ok slotType := rfl
  have resolves : (Registry.mk [("Slot", slotType)]).Resolves
      (Field.ofKind "slots" (.embedded slots)).toRecord := by
    intro name isNamed
    have same : name = "Slot" := List.mem_singleton.mp isNamed
    exact ⟨slotType, same ▸ known⟩
  exact ⟨⟨isBuilt, known, resolves⟩, Field.order_toField_toRecord isBuilt rfl known resolves⟩

/-- Slots of which the first of two declared fields was renamed. -/
def renamedSlots : Embedded :=
  (Embedded.build slotType [.int "a", .int "b"] []).run
    [.rename none "a" "slots.c" (.int "c")]

theorem order_differs_renamedSlots :
    ∃ rebuilt, (Field.ofKind "slots" (.embedded renamedSlots)).toRecord.toField
        ⟨[("Slot", slotType)]⟩ = .ok (Field.ofKind "slots" (.embedded rebuilt)) ∧
      Mapping.keys renamedSlots.fields = ["x", "b", "c"] ∧
      Mapping.keys rebuilt.fields = ["x", "c", "b"] :=
  ⟨_, rfl, rfl, rfl⟩

end SchemaTree
