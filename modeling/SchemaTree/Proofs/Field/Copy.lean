import SchemaTree.Proofs.Attachment
import SchemaTree.Proofs.Field.Inside

/-!
What is inside a copy.  Copying detaches a field, its elements and its effective fields, at every
depth, but leaves the fields of installed views as they are.  A field that was attached or compiled
before it was put into a view is so in the copy too.
-/

namespace SchemaTree

/-- The fields of the views that are installed inside a field, as far as elements and effective
fields lead. -/
inductive Field.OverlayOf (overlay : Field) : Field → Prop
  | here {field : Field} {nested : Embedded} {view : View} {name : String}
      (isEmbedded : field.embedded? = some nested) (isView : nested.view = some view)
      (isEntry : (name, overlay) ∈ view.virtualFields) : Field.OverlayOf overlay field
  | element {element field : Field} (isElement : field.element = some element)
      (below : Field.OverlayOf overlay element) : Field.OverlayOf overlay field
  | member {member field : Field} {nested : Embedded} {name : String}
      (isEmbedded : field.embedded? = some nested) (isEntry : (name, member) ∈ nested.fields)
      (below : Field.OverlayOf overlay member) : Field.OverlayOf overlay field

namespace Field

variable {part overlay field : Field} {holds : Field → Prop}

theorem OverlayOf.inside (isOverlay : overlay.OverlayOf field) : overlay.Inside field := by
  induction isOverlay with
  | here isEmbedded isView isEntry => exact .overlay isEmbedded isView isEntry .self
  | element isElement _ inductionHypothesis => exact .element isElement inductionHypothesis
  | member isEmbedded isEntry _ inductionHypothesis =>
      exact .member isEmbedded isEntry inductionHypothesis

/-- What holds everywhere, and of all fields inside those of views, holds of all fields inside. -/
theorem Everywhere.of_inside (everywhere : field.Everywhere holds)
    (ofOverlays :
      ∀ overlay part : Field, overlay.OverlayOf field → part.Inside overlay → holds part)
    (inside : part.Inside field) : holds part := by
  induction inside with
  | self => exact everywhere.here
  | element isElement _ inductionHypothesis =>
      exact inductionHypothesis (everywhere.element isElement)
        fun overlay part isOverlay => ofOverlays overlay part (.element isElement isOverlay)
  | member isEmbedded isEntry _ inductionHypothesis =>
      exact inductionHypothesis (everywhere.member isEmbedded isEntry)
        fun overlay part isOverlay => ofOverlays overlay part (.member isEmbedded isEntry isOverlay)
  | overlay isEmbedded isView isEntry inside _ =>
      exact ofOverlays _ _ (.here isEmbedded isView isEntry) inside

/-! ## Copies -/

theorem element_copy (field : Field) : field.copy.element = field.element.map Field.copy :=
  field.element_rebind none

theorem embedded?_copy (field : Field) :
    field.copy.embedded? = field.embedded?.map (Embedded.rebind none) :=
  field.embedded?_rebind none

theorem mem_fields_rebind_none {nested : Embedded} {name : String} {member : Field} :
    (name, member) ∈ (nested.rebind none).fields ↔
      ∃ source, (name, source) ∈ nested.fields ∧ member = source.copy := by
  rw [Embedded.fields_rebind]
  exact mem_rebindEntries

theorem OverlayOf.copy (isOverlay : overlay.OverlayOf field) : overlay.OverlayOf field.copy := by
  induction isOverlay with
  | here isEmbedded isView isEntry =>
      exact .here (by rw [embedded?_copy, isEmbedded, Option.map_some])
        (by rw [Embedded.view_rebind, isView]) isEntry
  | element isElement _ inductionHypothesis =>
      exact .element (by rw [element_copy, isElement, Option.map_some]) inductionHypothesis
  | member isEmbedded isEntry _ inductionHypothesis =>
      exact .member (by rw [embedded?_copy, isEmbedded, Option.map_some])
        (mem_fields_rebind_none.mpr ⟨_, isEntry, rfl⟩) inductionHypothesis

theorem OverlayOf.of_copy (isOverlay : overlay.OverlayOf field.copy) :
    overlay.OverlayOf field := by
  generalize isCopy : field.copy = copied at isOverlay
  induction isOverlay generalizing field with
  | here isEmbedded isView isEntry =>
      rw [← isCopy, embedded?_copy, Option.map_eq_some_iff] at isEmbedded
      obtain ⟨nested, isEmbedded, rfl⟩ := isEmbedded
      rw [Embedded.view_rebind] at isView
      exact .here isEmbedded isView isEntry
  | element isElement _ inductionHypothesis =>
      rw [← isCopy, element_copy, Option.map_eq_some_iff] at isElement
      obtain ⟨element, isElement, same⟩ := isElement
      exact .element isElement (inductionHypothesis same)
  | member isEmbedded isEntry _ inductionHypothesis =>
      rw [← isCopy, embedded?_copy, Option.map_eq_some_iff] at isEmbedded
      obtain ⟨nested, isEmbedded, rfl⟩ := isEmbedded
      obtain ⟨source, isSource, same⟩ := mem_fields_rebind_none.mp isEntry
      exact .member isEmbedded isSource (inductionHypothesis same.symm)

/-- A copy has the fields of the installed views of the original, and no others. -/
theorem overlayOf_copy_iff : overlay.OverlayOf field.copy ↔ overlay.OverlayOf field :=
  ⟨OverlayOf.of_copy, OverlayOf.copy⟩

/-- No effective field of a copy is bound, at any depth.  No field at all inside it is bound exactly
if none is inside the fields of the installed views of the original. -/
theorem copy_unbound_iff (field : Field) :
    field.copy.Everywhere Unbound ∧
      ((∀ part : Field, part.Inside field.copy → part.Unbound) ↔
        ∀ overlay part : Field, overlay.OverlayOf field → part.Inside overlay → part.Unbound) := by
  have everywhere : field.copy.Everywhere Unbound := field.unbound_detach
  refine ⟨everywhere, fun isUnbound overlay part isOverlay inside => ?_,
    fun ofOverlays part inside => ?_⟩
  · exact isUnbound part (inside.trans isOverlay.copy.inside)
  · exact everywhere.of_inside
      (fun overlay part isOverlay => ofOverlays overlay part (overlayOf_copy_iff.mp isOverlay))
      inside

end Field

/-- The virtual score of a sample. -/
def sampleScore : Field :=
  (Field.float "score").withExpression (.string "$logit")

/-- Detections under a view that shows one more field. -/
def detectionsShowing (field : Field) : Field :=
  (Field.embedded "detections" ⟨"Detection", none, []⟩).modifyNested fun nested =>
    (nested.useView (View.all.withField field)).1

/-- A score that is attached, compiled and then shown among detections stays attached and compiled
in the copy of these. -/
theorem copy_of_detections_keeps_score_bound :
    ∃ compilation, (sampleScore.bind fleetDataset "score").compile (.empty fleetDataset) =
        .ok compilation ∧
      ∃ part : Field, part.Inside (detectionsShowing compilation.field).copy ∧
        part.binding = some ⟨fleetDataset, "score"⟩ ∧
        part.stage = some (Store.setStage "score" (.string "$logit")) :=
  ⟨_, rfl, _, .overlay rfl rfl List.mem_cons_self .self, rfl, rfl⟩

end SchemaTree
