import SchemaTree.Field

/-!
Attachment.  Binding a field gives it and its descendants their dataset and path: elements share
the path of their container, and nested fields have theirs below it.  Whatever changes a binding
drops compiled stages, since a stage holds for one path only.  Views are left alone.
-/

namespace SchemaTree

def Attributes.rebind (attributes : Attributes) (binding : Option Binding) : Attributes :=
  { attributes with
    binding
    expression := attributes.expression.map Expression.uncompiled }

mutual

/-- The field under a new binding, or detached without one. -/
def Field.rebind (binding : Option Binding) : Field → Field
  | ⟨attributes, kind⟩ => ⟨attributes.rebind binding, kind.rebind binding⟩
  termination_by structural field => field

def Kind.rebind (binding : Option Binding) : Kind → Kind
  | .list flavor (some element) => .list flavor (some (element.rebind binding))
  | .dict flavor (some element) => .dict flavor (some (element.rebind binding))
  | .embedded nested => .embedded (nested.rebind binding)
  | kind => kind
  termination_by structural kind => kind

def Embedded.rebind (binding : Option Binding) : Embedded → Embedded
  | ⟨documentType, declared, displaced, fields, view⟩ =>
      ⟨documentType, declared, displaced, rebindEntries binding fields, view⟩
  termination_by structural nested => nested

/-- Nested fields of a field under a new binding. -/
def rebindEntries (binding : Option Binding) : List (String × Field) → List (String × Field)
  | [] => []
  | (name, field) :: rest =>
      (name, field.rebind (binding.map fun outer => outer.child name))
        :: rebindEntries binding rest
  termination_by structural fields => fields

end

namespace Field

/-- Attaches a field and its descendants to a dataset. -/
def bind (field : Field) (dataset : Uuid) (path : String) : Field :=
  field.rebind (some ⟨dataset, path⟩)

def detach (field : Field) : Field :=
  field.rebind none

/-- Attaches a field at a path, or detaches it without a dataset. -/
def place (field : Field) (dataset : Option Uuid) (path : String) : Field :=
  field.rebind (dataset.map fun dataset => ⟨dataset, path⟩)

def copy (field : Field) : Field :=
  field.detach

theorem binding_rebind (field : Field) (binding : Option Binding) :
    (field.rebind binding).binding = binding := by
  obtain ⟨attributes, kind⟩ := field
  rfl

theorem name_rebind (field : Field) (binding : Option Binding) :
    (field.rebind binding).name = field.name := by
  obtain ⟨attributes, kind⟩ := field
  rfl

theorem isAttached_detach (field : Field) : field.detach.isAttached = false := by
  simp [detach, isAttached, binding_rebind]

end Field

theorem lookup_rebindEntries (binding : Option Binding) (fields : List (String × Field))
    (name : String) :
    Mapping.lookup (rebindEntries binding fields) name =
      (Mapping.lookup fields name).map
        (Field.rebind (binding.map fun outer => outer.child name)) := by
  induction fields with
  | nil => rfl
  | cons entry rest inductionHypothesis =>
      obtain ⟨key, field⟩ := entry
      simp only [rebindEntries, Mapping.lookup, inductionHypothesis]
      split
      · rename_i same
        rw [same, Option.map_some]
      · rfl

end SchemaTree
