import SchemaTree.Field

/-!
Properties that hold everywhere in a field: of the field itself, of its element field, and of the
effective fields of its payload, at every depth.  A property of mappings can hold at every level.
-/

namespace SchemaTree

mutual

/-- Whether a property holds of a field and of all fields below it. -/
def Field.Everywhere (holds : Field → Prop) : Field → Prop
  | ⟨attributes, kind⟩ => holds ⟨attributes, kind⟩ ∧ kind.Everywhere holds
  termination_by structural field => field

/-- Whether a property holds of all fields of a kind. -/
def Kind.Everywhere (holds : Field → Prop) : Kind → Prop
  | .list _ (some element) => element.Everywhere holds
  | .dict _ (some element) => element.Everywhere holds
  | .embedded nested => nested.Everywhere holds
  | _ => True
  termination_by structural kind => kind

/-- Whether a property holds of all fields of a payload. -/
def Embedded.Everywhere (holds : Field → Prop) : Embedded → Prop
  | ⟨_, _, _, fields, _⟩ => entriesEverywhere holds fields
  termination_by structural nested => nested

/-- Whether a property holds of all fields of a mapping. -/
def entriesEverywhere (holds : Field → Prop) : List (String × Field) → Prop
  | [] => True
  | (_, field) :: rest => field.Everywhere holds ∧ entriesEverywhere holds rest
  termination_by structural fields => fields

end

theorem entriesEverywhere_iff {holds : Field → Prop} {fields : List (String × Field)} :
    entriesEverywhere holds fields ↔ ∀ entry ∈ fields, entry.2.Everywhere holds := by
  induction fields with
  | nil => exact ⟨fun _ _ isEntry => absurd isEntry List.not_mem_nil, fun _ => trivial⟩
  | cons entry rest inductionHypothesis =>
      rw [entriesEverywhere, List.forall_mem_cons, inductionHypothesis]

theorem Field.Everywhere.here {holds : Field → Prop} {field : Field}
    (everywhere : field.Everywhere holds) : holds field := by
  obtain ⟨attributes, kind⟩ := field
  exact everywhere.1

theorem Field.Everywhere.element {holds : Field → Prop} {field element : Field}
    (everywhere : field.Everywhere holds) (isElement : field.element = some element) :
    element.Everywhere holds := by
  obtain ⟨attributes, kind⟩ := field
  cases kind with
  | list flavor inner =>
      cases isElement
      exact everywhere.2
  | dict flavor inner =>
      cases isElement
      exact everywhere.2
  | _ => contradiction

theorem Field.Everywhere.member {holds : Field → Prop} {field : Field} {nested : Embedded}
    (everywhere : field.Everywhere holds) (isEmbedded : field.embedded? = some nested)
    {entry : String × Field} (isEntry : entry ∈ nested.fields) : entry.2.Everywhere holds := by
  obtain ⟨attributes, kind⟩ := field
  cases kind with
  | embedded inner =>
      cases isEmbedded
      obtain ⟨type, declared, displaced, fields, view⟩ := nested
      exact entriesEverywhere_iff.mp everywhere.2 entry isEntry
  | _ => contradiction

section Implied

variable {stronger weaker : Field → Prop}

mutual

theorem Field.Everywhere.imp (implies : ∀ field, stronger field → weaker field) :
    (field : Field) → field.Everywhere stronger → field.Everywhere weaker
  | ⟨_, kind⟩, ⟨here, below⟩ => ⟨implies _ here, Kind.Everywhere.imp implies kind below⟩
  termination_by structural field => field

theorem Kind.Everywhere.imp (implies : ∀ field, stronger field → weaker field) :
    (kind : Kind) → kind.Everywhere stronger → kind.Everywhere weaker
  | .list _ (some element), everywhere => Field.Everywhere.imp implies element everywhere
  | .dict _ (some element), everywhere => Field.Everywhere.imp implies element everywhere
  | .embedded nested, everywhere => Embedded.Everywhere.imp implies nested everywhere
  | .list _ none, _ | .dict _ none, _ => trivial
  | .objectId, _ | .uuid, _ | .boolean, _ | .int, _ | .frameNumber, _ | .float _ _, _
  | .string, _ | .date, _ | .dateTime, _ | .geo _, _ | .vector, _ | .array, _ => trivial
  termination_by structural kind => kind

theorem Embedded.Everywhere.imp (implies : ∀ field, stronger field → weaker field) :
    (nested : Embedded) → nested.Everywhere stronger → nested.Everywhere weaker
  | ⟨_, _, _, fields, _⟩, everywhere => entriesEverywhere_imp implies fields everywhere
  termination_by structural nested => nested

theorem entriesEverywhere_imp (implies : ∀ field, stronger field → weaker field) :
    (fields : List (String × Field)) →
      entriesEverywhere stronger fields → entriesEverywhere weaker fields
  | [], _ => trivial
  | (_, field) :: rest, ⟨first, others⟩ =>
      ⟨Field.Everywhere.imp implies field first, entriesEverywhere_imp implies rest others⟩
  termination_by structural fields => fields

end

end Implied

/-- Whether a property holds of a mapping of fields and of the effective fields of every embedded
document below it. -/
def EveryLevel (holds : List (String × Field) → Prop) (fields : List (String × Field)) : Prop :=
  holds fields ∧ entriesEverywhere
    (fun field => ∀ nested, field.embedded? = some nested → holds nested.fields) fields

theorem EveryLevel.nested {holds : List (String × Field) → Prop} {attributes : Attributes}
    {nested : Embedded}
    (everywhere : Field.Everywhere
      (fun field => ∀ nested, field.embedded? = some nested → holds nested.fields)
      ⟨attributes, .embedded nested⟩) :
    EveryLevel holds nested.fields := by
  refine ⟨everywhere.here nested rfl, entriesEverywhere_iff.mpr ?_⟩
  intro entry isEntry
  exact everywhere.member rfl isEntry

theorem EveryLevel.tail {holds : List (String × Field) → Prop} {entry : String × Field}
    {rest : List (String × Field)} (everyLevel : EveryLevel holds (entry :: rest))
    (isShorter : holds rest) : EveryLevel holds rest :=
  ⟨isShorter, everyLevel.2.2⟩

theorem EveryLevel.imp {stronger weaker : List (String × Field) → Prop}
    (implies : ∀ fields, stronger fields → weaker fields) {fields : List (String × Field)}
    (everyLevel : EveryLevel stronger fields) : EveryLevel weaker fields := by
  refine ⟨implies _ everyLevel.1, entriesEverywhere_imp ?_ fields everyLevel.2⟩
  intro field each nested isEmbedded
  exact implies _ (each nested isEmbedded)

end SchemaTree
