import Mathlib.Data.Set.Function
import SchemaTree.Field.Constructors
import SchemaTree.Proofs.DocumentType
import SchemaTree.Proofs.Merge

/-!
Which fields can stand in for which.  Every field can stand in for itself.  What can stand in for a
field between can stand in for what that one can stand in for, as long as names tell document types
apart and the field between has an element wherever the outer two have one: a field without an
element fits, and is fitted by, containers of anything.
-/

namespace SchemaTree

namespace Field

/-- The document types that a field is compared by, its own or that of its innermost element, with
all their ancestors. -/
def documentTypes : Field → List DocumentType
  | ⟨_, .embedded nested⟩ => nested.documentType.ancestors
  | ⟨_, .list _ (some element)⟩ => element.documentTypes
  | ⟨_, .dict _ (some element)⟩ => element.documentTypes
  | _ => []

/-- Whether a field has an element at every level of containers at which two others have one. -/
inductive Bridges : Field → Field → Field → Prop
  | intro {middle first last : Field}
      (isBridged : ∀ inner outer, first.element = some inner → last.element = some outer →
        ∃ between, middle.element = some between)
      (below : ∀ between inner outer, middle.element = some between →
        first.element = some inner → last.element = some outer → Bridges between inner outer) :
      Bridges middle first last

/-- Whether names tell the document types of some fields apart. -/
def TypesNamedApart (fields : List Field) : Prop :=
  Set.InjOn DocumentType.name {type | ∃ field ∈ fields, type ∈ field.documentTypes}

variable {field first middle last : Field}

theorem documentTypes_of_embedded? {nested : Embedded}
    (isEmbedded : field.embedded? = some nested) :
    field.documentTypes = nested.documentType.ancestors := by
  obtain ⟨attributes, rfl⟩ := embedded?_eq_some_iff.mp isEmbedded
  rw [documentTypes]

theorem documentTypes_of_element {element : Field} (isElement : field.element = some element) :
    field.documentTypes = element.documentTypes := by
  obtain ⟨attributes, kind⟩ := field
  cases kind with
  | list flavor inner =>
      cases isElement
      rw [documentTypes]
  | dict flavor inner =>
      cases isElement
      rw [documentTypes]
  | _ => contradiction

theorem Fits.refl (field : Field) : field.Fits field := by
  induction field using parts_induction with
  | step field ofElement _ =>
      refine .intro (FieldType.isSubtypeOf_self _) ?_ ?_
      · intro inner outer isInner isOuter
        obtain rfl := Option.some.inj (isInner.symm.trans isOuter)
        exact DocumentType.isSubclassOf_self _
      · intro inner outer isInner isOuter
        obtain rfl := Option.some.inj (isInner.symm.trans isOuter)
        exact ofElement inner isInner

theorem Fits.trans (bridges : middle.Bridges first last) (lower : first.Fits middle)
    (upper : middle.Fits last)
    (identified : ∀ type ∈ first.documentTypes, ∀ other ∈ middle.documentTypes,
      type.name = other.name → type = other) : first.Fits last := by
  induction bridges with
  | @intro middle first last isBridged _ inductionHypothesis =>
      obtain ⟨lowerType, lowerDocument, lowerElement⟩ := lower
      obtain ⟨upperType, upperDocument, upperElement⟩ := upper
      refine .intro (FieldType.isSubtypeOf_trans lowerType upperType) ?_ ?_
      · intro inner outer isInner isOuter
        obtain ⟨between, isBetween⟩ :=
          (exists_embedded?_of_isSubtypeOf lowerType).mp ⟨inner, isInner⟩
        refine DocumentType.isSubclassOf_trans ?_ (lowerDocument inner between isInner isBetween)
          (upperDocument between outer isBetween isOuter)
        rw [documentTypes_of_embedded? isInner, documentTypes_of_embedded? isBetween] at identified
        intro ancestor isAncestor sameName
        exact identified ancestor isAncestor _ (DocumentType.self_mem_ancestors _) sameName
      · intro inner outer isInner isOuter
        obtain ⟨between, isBetween⟩ := isBridged inner outer isInner isOuter
        rw [documentTypes_of_element isInner, documentTypes_of_element isBetween] at identified
        exact inductionHypothesis between inner outer isBetween isInner isOuter
          (lowerElement inner between isInner isBetween)
          (upperElement between outer isBetween isOuter) identified

end Field

/-- The check of one field against another has the same outcome at all paths.  Every field passes
it against itself, and among fields whose document types are told apart by their names, what passes
against a field between passes against what that one passes against, if the field between has an
element wherever the outer two have one. -/
theorem checkFit_preorder :
    (∀ path incoming existing, checkFit path incoming existing = .ok () ↔ incoming.Fits existing) ∧
      (∀ path field, checkFit path field field = .ok ()) ∧
      ∀ first middle last : Field, Field.TypesNamedApart [first, middle, last] →
        middle.Bridges first last → ∀ path,
          checkFit path first middle = .ok () → checkFit path middle last = .ok () →
            checkFit path first last = .ok () := by
  refine ⟨fun path incoming existing => checkFit_eq_ok_iff_fits,
    fun path field => checkFit_eq_ok_iff_fits.mpr (.refl field), ?_⟩
  intro first middle last namedApart bridges path lower upper
  rw [checkFit_eq_ok_iff_fits] at lower upper ⊢
  refine .trans bridges lower upper fun type isType other isOther sameName => ?_
  exact namedApart ⟨first, by simp, isType⟩ ⟨middle, by simp, isOther⟩ sameName

def shapeType : DocumentType :=
  ⟨"Shape", none, []⟩

def polygonType : DocumentType :=
  ⟨"Polygon", some shapeType, []⟩

def squareType : DocumentType :=
  ⟨"Square", some polygonType, []⟩

/-- Lists of documents of a type. -/
def drawing (type : DocumentType) : Field :=
  .list "drawing" (some (.embedded "shape" type))

theorem checkFit_preorder_drawings :
    let squares := Field.embeddedList "drawing" squareType
    (Field.TypesNamedApart [squares, drawing polygonType, drawing shapeType] ∧
        (drawing polygonType).Bridges squares (drawing shapeType) ∧
        checkFit "drawing" squares (drawing polygonType) = .ok () ∧
        checkFit "drawing" (drawing polygonType) (drawing shapeType) = .ok ()) ∧
      checkFit "drawing" squares (drawing shapeType) = .ok () := by
  intro squares
  have namedApart : Field.TypesNamedApart [squares, drawing polygonType, drawing shapeType] := by
    have isAncestor : ∀ type, (∃ field ∈ [squares, drawing polygonType, drawing shapeType],
        type ∈ field.documentTypes) → type ∈ squareType.ancestors := by
      rintro type ⟨field, isField, isType⟩
      simp only [List.mem_cons, List.not_mem_nil, or_false] at isField
      obtain rfl | rfl | rfl := isField
      · exact isType
      · exact .tail _ isType
      · exact .tail _ (.tail _ isType)
    have distinct : (squareType.ancestors.map DocumentType.name).Nodup := by decide
    intro type isType other isOther same
    exact List.inj_on_of_nodup_map distinct (isAncestor type isType) (isAncestor other isOther) same
  have bridges : (drawing polygonType).Bridges squares (drawing shapeType) := by
    refine .intro (fun _ _ _ _ => ⟨_, rfl⟩) ?_
    rintro _ _ _ ⟨⟩ ⟨⟩ ⟨⟩
    exact .intro nofun nofun
  have lower : checkFit "drawing" squares (drawing polygonType) = .ok () := rfl
  have upper : checkFit "drawing" (drawing polygonType) (drawing shapeType) = .ok () := rfl
  exact ⟨⟨namedApart, bridges, lower, upper⟩,
    checkFit_preorder.2.2 _ _ _ namedApart bridges _ lower upper⟩

/-- A list without an element stands between lists of elements that do not fit. -/
example :
    let texts := Field.list "tags" (some (.string "tag"))
    let numbers := Field.list "tags" (some (.int "tag"))
    checkFit "tags" texts (.list "tags" none) = .ok () ∧
      checkFit "tags" (.list "tags" none) numbers = .ok () ∧
      checkFit "tags" texts numbers = .error (.typeMismatch "tags" "IntField" "StringField") :=
  ⟨rfl, rfl, rfl⟩

end SchemaTree
