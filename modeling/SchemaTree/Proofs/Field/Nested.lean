import SchemaTree.Proofs.Field.Binding
import SchemaTree.Proofs.Field.Everywhere

/-!
The payload through which dotted paths descend.  It is that of the field itself or of its element;
changing it changes nothing else.
-/

namespace SchemaTree

/-- Where the payload of a field stands: in the field itself, or in its element. -/
inductive Field.Holds : Field → Embedded → Prop
  | document (attributes : Attributes) (nested : Embedded) :
      Field.Holds ⟨attributes, .embedded nested⟩ nested
  | list (attributes element : Attributes) (flavor : ListFlavor) (nested : Embedded) :
      Field.Holds ⟨attributes, .list flavor (some ⟨element, .embedded nested⟩)⟩ nested
  | dict (attributes element : Attributes) (flavor : DictFlavor) (nested : Embedded) :
      Field.Holds ⟨attributes, .dict flavor (some ⟨element, .embedded nested⟩)⟩ nested

namespace Field

variable {field : Field} {nested : Embedded}

theorem embedded?_eq_some_iff :
    field.embedded? = some nested ↔ ∃ attributes, field = ⟨attributes, .embedded nested⟩ := by
  constructor
  · intro isEmbedded
    obtain ⟨attributes, kind⟩ := field
    cases kind with
    | embedded other =>
        cases isEmbedded
        exact ⟨attributes, rfl⟩
    | _ => contradiction
  · rintro ⟨attributes, rfl⟩
    rfl

theorem nested?_eq_some_iff : field.nested? = some nested ↔ field.Holds nested := by
  constructor
  · intro isNested
    obtain ⟨attributes, kind⟩ := field
    cases kind with
    | embedded payload =>
        obtain rfl := Option.some.inj isNested
        exact .document attributes payload
    | list flavor element =>
        rcases element with - | element
        · contradiction
        · obtain ⟨inner, rfl⟩ := embedded?_eq_some_iff.mp isNested
          exact .list attributes inner flavor nested
    | dict flavor element =>
        rcases element with - | element
        · contradiction
        · obtain ⟨inner, rfl⟩ := embedded?_eq_some_iff.mp isNested
          exact .dict attributes inner flavor nested
    | _ => contradiction
  · rintro (_ | _ | _) <;> rfl

/-- Updates descend where look-ups do: a container without an element has no payload either way. -/
@[simp]
theorem reached?_eq_nested? (field : Field) : field.reached? = field.nested? := by
  obtain ⟨attributes, kind⟩ := field
  cases kind with
  | list flavor element => cases element <;> rfl
  | dict flavor element => cases element <;> rfl
  | _ => rfl

theorem sizeOf_element_lt {element : Field} (isElement : field.element = some element) :
    sizeOf element < sizeOf field := by
  obtain ⟨attributes, kind⟩ := field
  cases kind with
  | list flavor inner =>
      cases isElement
      simp only [Field.mk.sizeOf_spec, Kind.list.sizeOf_spec, Option.some.sizeOf_spec]
      omega
  | dict flavor inner =>
      cases isElement
      simp only [Field.mk.sizeOf_spec, Kind.dict.sizeOf_spec, Option.some.sizeOf_spec]
      omega
  | _ => contradiction

theorem Holds.sizeOf_lt (holds : field.Holds nested) : sizeOf nested.fields < sizeOf field := by
  obtain ⟨documentType, declared, displaced, fields, view⟩ := nested
  cases holds <;> simp <;> omega

theorem Holds.sizeOf_member_lt (holds : field.Holds nested) {name : String} {member : Field}
    (isEntry : (name, member) ∈ nested.fields) : sizeOf member < sizeOf field := by
  have isPart := List.sizeOf_lt_of_mem isEntry
  have smaller := holds.sizeOf_lt
  rw [Prod.mk.sizeOf_spec] at isPart
  omega

/-- Induction on the parts of a field: its element, and the effective fields of its document. -/
@[elab_as_elim]
theorem parts_induction {motive : Field → Prop}
    (step : ∀ field : Field, (∀ element, field.element = some element → motive element) →
      (∀ nested, field.embedded? = some nested → ∀ entry ∈ nested.fields, motive entry.2) →
        motive field) (field : Field) : motive field := by
  refine step field (fun element isElement => ?_) fun nested isEmbedded entry isEntry => ?_
  · have smaller := sizeOf_element_lt isElement
    exact parts_induction step element
  · obtain ⟨attributes, rfl⟩ := embedded?_eq_some_iff.mp isEmbedded
    have smaller := (Holds.document attributes nested).sizeOf_member_lt isEntry
    exact parts_induction step entry.2
termination_by sizeOf field

/-- Without a payload there is nothing to change. -/
theorem modifyNested_of_nested?_eq_none (isPlain : field.nested? = none)
    (change : Embedded → Embedded) : field.modifyNested change = field := by
  obtain ⟨attributes, kind⟩ := field
  cases kind with
  | embedded nested => contradiction
  | list flavor element =>
      rcases element with - | ⟨inner, kind⟩
      · rfl
      · cases kind <;> first | rfl | contradiction
  | dict flavor element =>
      rcases element with - | ⟨inner, kind⟩
      · rfl
      · cases kind <;> first | rfl | contradiction
  | _ => rfl

theorem Holds.modifyNested (holds : field.Holds nested) (change : Embedded → Embedded) :
    (field.modifyNested change).Holds (change nested) := by
  cases holds with
  | document => exact .document _ _
  | list => exact .list _ _ _ _
  | dict => exact .dict _ _ _ _

@[simp]
theorem attributes_modifyNested (field : Field) (change : Embedded → Embedded) :
    (field.modifyNested change).attributes = field.attributes := by
  unfold Field.modifyNested
  split <;> rfl

@[simp]
theorem type_modifyNested (field : Field) (change : Embedded → Embedded) :
    (field.modifyNested change).type = field.type := by
  unfold Field.modifyNested
  split <;> rfl

theorem modifyNested_modifyNested (field : Field) (first second : Embedded → Embedded) :
    (field.modifyNested first).modifyNested second =
      field.modifyNested fun nested => second (first nested) := by
  cases isNested : field.nested? with
  | none => simp only [modifyNested_of_nested?_eq_none isNested]
  | some nested => cases nested?_eq_some_iff.mp isNested <;> rfl

theorem Holds.rebind (holds : field.Holds nested) (binding : Option Binding) :
    (field.rebind binding).Holds (nested.rebind binding) := by
  cases holds with
  | document => exact .document _ _
  | list => exact .list _ _ _ _
  | dict => exact .dict _ _ _ _

@[simp]
theorem nested?_rebind (field : Field) (binding : Option Binding) :
    (field.rebind binding).nested? = field.nested?.map (Embedded.rebind binding) := by
  unfold nested?
  rw [element_rebind]
  cases field.element with
  | none => exact field.embedded?_rebind binding
  | some element => exact element.embedded?_rebind binding

theorem Holds.unique {other : Embedded} (first : field.Holds nested) (second : field.Holds other) :
    nested = other :=
  Option.some.inj ((nested?_eq_some_iff.mpr first).symm.trans (nested?_eq_some_iff.mpr second))

theorem Holds.modifyNested_self (holds : field.Holds nested) :
    (field.modifyNested fun _ => nested) = field := by
  cases holds <;> rfl

/-- Only what a change makes of the payload counts. -/
theorem Holds.modifyNested_congr (holds : field.Holds nested) {first second : Embedded → Embedded}
    (same : first nested = second nested) :
    field.modifyNested first = field.modifyNested second := by
  cases holds <;> simp only [Field.modifyNested, same]

theorem Holds.modifyNested_eq_const (holds : field.Holds nested) (change : Embedded → Embedded) :
    field.modifyNested change = field.modifyNested fun _ => change nested :=
  holds.modifyNested_congr rfl

end Field

theorem Field.Everywhere.below {holds : Field → Prop} {field : Field} {nested : Embedded}
    (everywhere : field.Everywhere holds) (isHeld : field.Holds nested) {entry : String × Field}
    (isEntry : entry ∈ nested.fields) : entry.2.Everywhere holds := by
  cases isHeld with
  | document => exact everywhere.member rfl isEntry
  | list => exact (everywhere.element rfl).member rfl isEntry
  | dict => exact (everywhere.element rfl).member rfl isEntry

theorem EveryLevel.below {holds : List (String × Field) → Prop} {fields : List (String × Field)}
    (everyLevel : EveryLevel holds fields) {name : String} {field : Field} {nested : Embedded}
    (isEntry : (name, field) ∈ fields) (isHeld : field.Holds nested) :
    EveryLevel holds nested.fields := by
  have everywhere := entriesEverywhere_iff.mp everyLevel.2 (name, field) isEntry
  cases isHeld with
  | document => exact .nested everywhere
  | list => exact .nested (everywhere.element rfl)
  | dict => exact .nested (everywhere.element rfl)

end SchemaTree
