import SchemaTree.Field.Binding
import SchemaTree.Field.Virtual

/-!
Bindings replace each other: of two, the later alone counts, and detaching twice is detaching once.
None of them leaves a compiled stage.
-/

namespace SchemaTree

@[simp]
theorem Attributes.rebind_rebind (attributes : Attributes) (first second : Option Binding) :
    (attributes.rebind first).rebind second = attributes.rebind second := by
  unfold rebind
  rw [Option.map_map]
  rfl

mutual

@[simp]
theorem Field.rebind_rebind (first second : Option Binding) :
    (field : Field) → (field.rebind first).rebind second = field.rebind second
  | ⟨attributes, kind⟩ => by
      rw [Field.rebind, Field.rebind, Field.rebind, Attributes.rebind_rebind,
        Kind.rebind_rebind first second kind]
  termination_by structural field => field

@[simp]
theorem Kind.rebind_rebind (first second : Option Binding) :
    (kind : Kind) → (kind.rebind first).rebind second = kind.rebind second
  | .list flavor (some element) => by
      rw [Kind.rebind, Kind.rebind, Kind.rebind, Field.rebind_rebind first second element]
  | .dict flavor (some element) => by
      rw [Kind.rebind, Kind.rebind, Kind.rebind, Field.rebind_rebind first second element]
  | .embedded nested => by
      rw [Kind.rebind, Kind.rebind, Kind.rebind, Embedded.rebind_rebind first second nested]
  | .list _ none | .dict _ none => rfl
  | .objectId | .uuid | .boolean | .int | .frameNumber | .float _ _ | .string | .date | .dateTime
  | .geo _ | .vector | .array => rfl
  termination_by structural kind => kind

@[simp]
theorem Embedded.rebind_rebind (first second : Option Binding) :
    (nested : Embedded) → (nested.rebind first).rebind second = nested.rebind second
  | ⟨documentType, declared, displaced, fields, view⟩ => by
      rw [Embedded.rebind, Embedded.rebind, Embedded.rebind,
        rebindEntries_rebindEntries first second fields]
  termination_by structural nested => nested

@[simp]
theorem rebindEntries_rebindEntries (first second : Option Binding) :
    (fields : List (String × Field)) →
      rebindEntries second (rebindEntries first fields) = rebindEntries second fields
  | [] => rfl
  | (name, field) :: rest => by
      rw [rebindEntries, rebindEntries, rebindEntries, Field.rebind_rebind,
        rebindEntries_rebindEntries first second rest]
  termination_by structural fields => fields

end

@[simp]
theorem keys_rebindEntries (binding : Option Binding) (fields : List (String × Field)) :
    Mapping.keys (rebindEntries binding fields) = Mapping.keys fields := by
  induction fields with
  | nil => rfl
  | cons entry rest inductionHypothesis =>
      obtain ⟨name, field⟩ := entry
      rw [rebindEntries, Mapping.keys, Mapping.keys, List.map_cons, List.map_cons]
      exact congrArg (name :: ·) inductionHypothesis

@[simp]
theorem length_rebindEntries (binding : Option Binding) (fields : List (String × Field)) :
    (rebindEntries binding fields).length = fields.length := by
  have sameLength := congrArg List.length (keys_rebindEntries binding fields)
  rw [Mapping.keys, Mapping.keys, List.length_map, List.length_map] at sameLength
  exact sameLength

@[simp]
theorem Embedded.documentType_rebind (nested : Embedded) (binding : Option Binding) :
    (nested.rebind binding).documentType = nested.documentType := by
  cases nested
  rfl

@[simp]
theorem Embedded.declared_rebind (nested : Embedded) (binding : Option Binding) :
    (nested.rebind binding).declared = nested.declared := by
  cases nested
  rfl

@[simp]
theorem Embedded.fields_rebind (nested : Embedded) (binding : Option Binding) :
    (nested.rebind binding).fields = rebindEntries binding nested.fields := by
  cases nested
  rfl

@[simp]
theorem Embedded.view_rebind (nested : Embedded) (binding : Option Binding) :
    (nested.rebind binding).view = nested.view := by
  cases nested
  rfl

theorem mem_rebindEntries {binding : Option Binding} {fields : List (String × Field)}
    {name : String} {member : Field} :
    (name, member) ∈ rebindEntries binding fields ↔
      ∃ source, (name, source) ∈ fields ∧
        member = source.rebind (binding.map fun outer => outer.child name) := by
  induction fields with
  | nil => simp [rebindEntries]
  | cons entry rest inductionHypothesis =>
      obtain ⟨key, field⟩ := entry
      rw [rebindEntries, List.mem_cons, inductionHypothesis]
      constructor
      · rintro (⟨rfl, rfl⟩ | ⟨source, isSource, same⟩)
        · exact ⟨field, List.mem_cons_self, rfl⟩
        · exact ⟨source, List.mem_cons_of_mem _ isSource, same⟩
      · rintro ⟨source, isSource, same⟩
        cases isSource with
        | head => exact .inl (by rw [same])
        | tail _ isSource => exact .inr ⟨source, isSource, same⟩

namespace Field

@[simp]
theorem type_rebind (field : Field) (binding : Option Binding) :
    (field.rebind binding).type = field.type := by
  obtain ⟨attributes, kind⟩ := field
  cases kind with
  | list flavor element => cases element <;> rfl
  | dict flavor element => cases element <;> rfl
  | _ => rfl

@[simp]
theorem element_rebind (field : Field) (binding : Option Binding) :
    (field.rebind binding).element = field.element.map (Field.rebind binding) := by
  obtain ⟨attributes, kind⟩ := field
  cases kind with
  | list flavor element => cases element <;> rfl
  | dict flavor element => cases element <;> rfl
  | _ => rfl

@[simp]
theorem embedded?_rebind (field : Field) (binding : Option Binding) :
    (field.rebind binding).embedded? = field.embedded?.map (Embedded.rebind binding) := by
  obtain ⟨attributes, kind⟩ := field
  cases kind with
  | list flavor element => cases element <;> rfl
  | dict flavor element => cases element <;> rfl
  | _ => rfl

@[simp]
theorem expression_rebind (field : Field) (binding : Option Binding) :
    (field.rebind binding).expression = field.expression.map Expression.uncompiled := by
  obtain ⟨attributes, kind⟩ := field
  rfl

/-- A new binding leaves no compiled stage. -/
@[simp]
theorem stage_rebind (field : Field) (binding : Option Binding) :
    (field.rebind binding).stage = none := by
  rw [stage, expression_rebind]
  cases field.expression <;> rfl

@[simp]
theorem detach_rebind (field : Field) (binding : Option Binding) :
    (field.rebind binding).detach = field.detach :=
  rebind_rebind binding none field

@[simp]
theorem detach_copy (field : Field) : field.copy.detach = field.copy :=
  field.detach_rebind none

end Field

end SchemaTree
