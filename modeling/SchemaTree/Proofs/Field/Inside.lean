import SchemaTree.Proofs.Field.Listing
import SchemaTree.Schema

/-!
The fields inside a field, those of installed views among them, and the names at every level.  If
the names of a document and of its view are distinct, the document shows the same fields that a
look-up finds.
-/

namespace SchemaTree

/-- The fields inside a field: itself, its element, and the fields of its document and of the view
that is installed on that, at any depth. -/
inductive Field.Inside (part : Field) : Field → Prop
  | self : Field.Inside part part
  | element {element field : Field} (isElement : field.element = some element)
      (inside : Field.Inside part element) : Field.Inside part field
  | member {member field : Field} {nested : Embedded} {name : String}
      (isEmbedded : field.embedded? = some nested) (isEntry : (name, member) ∈ nested.fields)
      (inside : Field.Inside part member) : Field.Inside part field
  | overlay {member field : Field} {nested : Embedded} {view : View} {name : String}
      (isEmbedded : field.embedded? = some nested) (isView : nested.view = some view)
      (isEntry : (name, member) ∈ view.virtualFields) (inside : Field.Inside part member) :
      Field.Inside part field

/-- Whether the names of a document, and those of its view, are distinct and have no dot. -/
structure Embedded.NamesDotFree (nested : Embedded) : Prop where
  fields : DotFree nested.fields
  overlay : ∀ view, nested.view = some view → DotFree view.virtualFields

/-- Whether this is so of every document inside a field. -/
def Field.NamesDotFree (field : Field) : Prop :=
  ∀ (part : Field) (nested : Embedded), part.Inside field → part.embedded? = some nested →
    nested.NamesDotFree

/-- Whether names are distinct and have no dot at every level of a schema. -/
structure Schema.NamesDotFree (schema : Schema) : Prop where
  top : DotFree schema
  below : ∀ entry ∈ schema, entry.2.NamesDotFree

theorem DotFree.sublist {part fields : List (String × Field)} (dotFree : DotFree fields)
    (isPart : part.Sublist fields) : DotFree part :=
  ⟨dotFree.distinct.sublist (isPart.map _), fun name isKey =>
    dotFree.dotFree name ((isPart.map _).subset isKey)⟩

theorem DotFree.extend {fields added : List (String × Field)} (dotFree : DotFree fields)
    (addedDotFree : DotFree added) : DotFree (Mapping.extend fields added) := by
  refine ⟨Mapping.nodup_extend dotFree.distinct added, fun name isKey => ?_⟩
  rcases Mapping.mem_keys_extend.mp isKey with isOld | isAdded
  · exact dotFree.dotFree name isOld
  · exact addedDotFree.dotFree name isAdded

namespace Field

variable {part middle field : Field} {nested : Embedded}

theorem Inside.trans (first : part.Inside middle) (second : middle.Inside field) :
    part.Inside field := by
  induction second with
  | self => exact first
  | element isElement _ inductionHypothesis => exact .element isElement inductionHypothesis
  | member isEmbedded isEntry _ inductionHypothesis =>
      exact .member isEmbedded isEntry inductionHypothesis
  | overlay isEmbedded isView isEntry _ inductionHypothesis =>
      exact .overlay isEmbedded isView isEntry inductionHypothesis

theorem NamesDotFree.inside (dotFree : field.NamesDotFree) (inside : part.Inside field) :
    part.NamesDotFree :=
  fun _ nested isPart isEmbedded => dotFree _ nested (isPart.trans inside) isEmbedded

theorem namesDotFree_iff :
    field.NamesDotFree ↔
      (∀ element, field.element = some element → element.NamesDotFree) ∧
        ∀ nested, field.embedded? = some nested → nested.NamesDotFree ∧
          (∀ entry ∈ nested.fields, entry.2.NamesDotFree) ∧
          ∀ view, nested.view = some view → ∀ entry ∈ view.virtualFields, entry.2.NamesDotFree := by
  constructor
  · intro dotFree
    refine ⟨fun element isElement => dotFree.inside (.element isElement .self), ?_⟩
    intro nested isEmbedded
    exact ⟨dotFree field nested .self isEmbedded,
      fun entry isEntry => dotFree.inside (.member isEmbedded isEntry .self),
      fun view isView entry isEntry => dotFree.inside (.overlay isEmbedded isView isEntry .self)⟩
  · rintro ⟨ofElement, ofDocument⟩ part nested inside isEmbedded
    cases inside with
    | self => exact (ofDocument nested isEmbedded).1
    | element isElement inside => exact ofElement _ isElement part nested inside isEmbedded
    | member isOuter isEntry inside =>
        exact (ofDocument _ isOuter).2.1 _ isEntry part nested inside isEmbedded
    | overlay isOuter isView isEntry inside =>
        exact (ofDocument _ isOuter).2.2 _ isView _ isEntry part nested inside isEmbedded

theorem NamesDotFree.of_plain (noElement : field.element = none)
    (noDocument : field.embedded? = none) : field.NamesDotFree :=
  namesDotFree_iff.mpr (by simp [noElement, noDocument])

/-- The document of a field is that of a field inside it. -/
theorem Holds.exists_inside (holds : field.Holds nested) :
    ∃ part : Field, part.Inside field ∧ part.embedded? = some nested := by
  cases holds with
  | document attributes => exact ⟨_, .self, rfl⟩
  | list attributes element flavor => exact ⟨_, .element rfl (.self), rfl⟩
  | dict attributes element flavor => exact ⟨_, .element rfl (.self), rfl⟩

end Field

namespace Embedded

variable {nested : Embedded} {showPrivate : Bool} {name : String} {member : Field}

/-- The fields of a document with those of its view in their places. -/
def overlaid (nested : Embedded) : List (String × Field) :=
  Mapping.extend nested.fields ((nested.view.map View.virtualFields).getD [])

theorem visible_eq (nested : Embedded) (showPrivate : Bool) :
    nested.visible showPrivate =
      nested.overlaid.filter fun entry => isVisible nested.view showPrivate entry.1 := by
  unfold visible visibleIn overlaid
  cases nested.view <;> rfl

theorem visible_sublist_overlaid (nested : Embedded) (showPrivate : Bool) :
    (nested.visible showPrivate).Sublist nested.overlaid := by
  rw [visible_eq]
  exact List.filter_sublist

theorem isVisible_iff {view : Option View} :
    isVisible view showPrivate name = true ↔
      isVisible view true name = true ∧ (showPrivate = true ∨ isPrivate name = false) := by
  simp [isVisible, and_comm]

/-- What is shown without private names is shown with them, in the same order. -/
theorem visible_sublist_visible_true (nested : Embedded) (showPrivate : Bool) :
    (nested.visible showPrivate).Sublist (nested.visible true) := by
  rw [visible_eq, visible_eq]
  apply List.monotone_filter_right
  intro entry isVisible
  exact (isVisible_iff.mp isVisible).1

theorem mem_overlaid {entry : String × Field} (isEntry : entry ∈ nested.overlaid) :
    entry ∈ nested.fields ∨ ∃ view, nested.view = some view ∧ entry ∈ view.virtualFields := by
  rcases Mapping.mem_extend isEntry with isField | isOverlay
  · exact .inl isField
  · cases isView : nested.view with
    | none => simp [isView] at isOverlay
    | some view => exact .inr ⟨view, rfl, by simpa [isView] using isOverlay⟩

theorem NamesDotFree.overlaid (dotFree : nested.NamesDotFree) : DotFree nested.overlaid := by
  apply dotFree.fields.extend
  cases isView : nested.view with
  | none => exact ⟨List.nodup_nil, by simp [Mapping.keys]⟩
  | some view => exact dotFree.overlay view isView

theorem NamesDotFree.visible (dotFree : nested.NamesDotFree) (showPrivate : Bool) :
    DotFree (nested.visible showPrivate) :=
  dotFree.overlaid.sublist (nested.visible_sublist_overlaid showPrivate)

/-- A look-up prefers the fields of the view, as the overlay does. -/
theorem NamesDotFree.lookup_overlaid (dotFree : nested.NamesDotFree) (name : String) :
    Mapping.lookup nested.overlaid name = nested.get? name := by
  unfold Embedded.overlaid get?
  rw [Mapping.lookup_extend]
  cases isView : nested.view with
  | none => simp [Mapping.lookup]
  | some view =>
      have distinct := (dotFree.overlay view isView).distinct
      simp only [Option.map_some, Option.getD_some, Option.bind_some,
        Mapping.lookup_reverse distinct]
      cases Mapping.lookup view.virtualFields name <;> rfl

theorem NamesDotFree.mem_visible_iff (dotFree : nested.NamesDotFree) :
    (name, member) ∈ nested.visible showPrivate ↔
      isVisible nested.view showPrivate name = true ∧ nested.get? name = some member := by
  rw [visible_eq, List.mem_filter, Mapping.mem_iff_lookup dotFree.overlaid.distinct,
    dotFree.lookup_overlaid, and_comm]

theorem NamesDotFree.mem_namesIn_iff (dotFree : nested.NamesDotFree) :
    name ∈ nested.namesIn nested.view showPrivate ↔
      isVisible nested.view showPrivate name = true ∧ ∃ member, nested.get? name = some member := by
  show name ∈ Mapping.keys (nested.visible showPrivate) ↔ _
  simp [Mapping.keys, dotFree.mem_visible_iff]

end Embedded

namespace Field

variable {field : Field} {nested : Embedded}

theorem Holds.namesDotFree (holds : field.Holds nested) (dotFree : field.NamesDotFree) :
    nested.NamesDotFree := by
  obtain ⟨part, inside, isEmbedded⟩ := holds.exists_inside
  exact dotFree part nested inside isEmbedded

theorem Holds.inside_of_mem_overlaid (holds : field.Holds nested) {entry : String × Field}
    (isEntry : entry ∈ nested.overlaid) : entry.2.Inside field := by
  obtain ⟨part, inside, isEmbedded⟩ := holds.exists_inside
  rcases Embedded.mem_overlaid isEntry with isField | ⟨view, isView, isOverlay⟩
  · exact (Inside.member isEmbedded isField (.self)).trans inside
  · exact (Inside.overlay isEmbedded isView isOverlay (.self)).trans inside

/-- The names are distinct and have no dot at every level that a field shows. -/
theorem Holds.namesDotFree_visible (holds : field.Holds nested) (dotFree : field.NamesDotFree)
    (showPrivate : Bool) : Schema.NamesDotFree (nested.visible showPrivate) := by
  refine ⟨(holds.namesDotFree dotFree).visible showPrivate, fun entry isEntry => ?_⟩
  have isOverlaid := (nested.visible_sublist_overlaid showPrivate).subset isEntry
  exact dotFree.inside (holds.inside_of_mem_overlaid isOverlaid)

end Field

end SchemaTree
