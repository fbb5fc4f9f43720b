import Mathlib.Data.List.Infix
import SchemaTree.Proofs.Field.Inside
import SchemaTree.Proofs.Path

/-!
What a field shows below it, listed by rows of names, depth first.  The rows are those that lead
through visible names only, each to the field that a look-up finds there, and they stand in the
order of the names where they part.
-/

namespace SchemaTree

/-- Whether every name of a row below a field is visible in the document that it is looked up in,
under the view that is installed there. -/
def Field.Shows : List String → Field → Prop
  | [], _ => True
  | name :: rest, field => ∃ nested member, field.nested? = some nested ∧
      name ∈ nested.namesIn nested.view true ∧ nested.get? name = some member ∧
      Field.Shows rest member

/-- Whether a field shows another at the end of a row of names, none of which is private unless
private names are shown. -/
structure Field.ShowsAt (field : Field) (showPrivate : Bool) (names : List String)
    (found : Field) : Prop where
  shows : field.Shows names
  isWanted : ∀ name ∈ names, showPrivate = true ∨ isPrivate name = false
  isFound : field.descend? names = some found

/-- The depth-first order of rows of names among fields and all that they show.  A row comes before
those that continue it, and rows that part are in the order of the names where they do. -/
inductive Precedes : List (String × Field) → List String → List String → Prop
  | continued (fields : List (String × Field)) (name : String) {below : List String}
      (nonempty : below ≠ []) : Precedes fields [name] (name :: below)
  | parted {fields : List (String × Field)} {first second : String}
      (inOrder : [first, second].Sublist (Mapping.keys fields)) (names others : List String) :
      Precedes fields (first :: names) (second :: others)
  | inside {fields : List (String × Field)} {name : String} {field : Field} {nested : Embedded}
      {names others : List String} (isFound : Mapping.lookup fields name = some field)
      (holds : field.Holds nested) (precedes : Precedes (nested.visible true) names others) :
      Precedes fields (name :: names) (name :: others)

section Listing

variable {field found : Field} {nested : Embedded} {showPrivate : Bool} {names : List String}
variable {fields : List (String × Field)}

theorem Field.Holds.sizeOf_visible_lt (holds : field.Holds nested) {entry : String × Field}
    (isEntry : entry ∈ nested.visible showPrivate) : sizeOf entry.2 < sizeOf field := by
  obtain ⟨name, member⟩ := entry
  have isOverlaid := (nested.visible_sublist_overlaid showPrivate).subset isEntry
  rcases Embedded.mem_overlaid isOverlaid with isField | ⟨view, isView, isOverlay⟩
  · exact holds.sizeOf_member_lt isField
  · have isPart := List.sizeOf_lt_of_mem isOverlay
    obtain ⟨documentType, declared, displaced, fields, installed⟩ := nested
    obtain ⟨selected, excluded, virtualFields⟩ := view
    cases isView
    cases holds <;> simp at isPart ⊢ <;> omega

/-- The rows of names below a field that lead through visible names, depth first, each with the
field that it leads to. -/
def Field.shownBelow (showPrivate : Bool) (field : Field) : List (List String × Field) :=
  match _ : field.nested? with
  | none => []
  | some nested => (nested.visible showPrivate).attach.flatMap fun entry =>
      ([entry.1.1], entry.1.2) ::
        (entry.1.2.shownBelow showPrivate).map fun row => (entry.1.1 :: row.1, row.2)
termination_by sizeOf field
decreasing_by exact (nested?_eq_some_iff.mp ‹_›).sizeOf_visible_lt entry.2

/-- The rows of names that begin with an entry, which comes first. -/
def rowsFrom (showPrivate : Bool) (entry : String × Field) : List (List String × Field) :=
  ([entry.1], entry.2) ::
    (entry.2.shownBelow showPrivate).map fun row => (entry.1 :: row.1, row.2)

theorem Field.Holds.shownBelow_eq (holds : field.Holds nested) (showPrivate : Bool) :
    field.shownBelow showPrivate = (nested.visible showPrivate).flatMap (rowsFrom showPrivate) := by
  rw [Field.shownBelow]
  split
  · next isNested => simp [nested?_eq_some_iff.mpr holds] at isNested
  · next other isNested =>
      obtain rfl := holds.unique (nested?_eq_some_iff.mp isNested)
      conv_rhs => rw [← List.attach_map_subtype_val (nested.visible showPrivate), List.flatMap_map]
      rfl

theorem Field.shownBelow_of_nested?_eq_none (isPlain : field.nested? = none) (showPrivate : Bool) :
    field.shownBelow showPrivate = [] := by
  rw [Field.shownBelow]
  split
  · rfl
  · next isNested => simp [isPlain] at isNested

/-! ## Which rows are listed -/

theorem mem_rowsFrom_iff {entry : String × Field} :
    (names, found) ∈ rowsFrom showPrivate entry ↔ ∃ rest, names = entry.1 :: rest ∧
      (rest = [] ∧ found = entry.2 ∨ (rest, found) ∈ entry.2.shownBelow showPrivate) := by
  rw [rowsFrom, List.mem_cons, List.mem_map]
  constructor
  · rintro (isHere | ⟨row, isRow, isBelow⟩)
    · cases isHere
      exact ⟨[], rfl, .inl ⟨rfl, rfl⟩⟩
    · cases isBelow
      exact ⟨row.1, rfl, .inr isRow⟩
  · rintro ⟨rest, rfl, ⟨rfl, rfl⟩ | isRow⟩
    · exact .inl rfl
    · exact .inr ⟨(rest, found), isRow, rfl⟩

theorem exists_head_of_mem_flatMap_rowsFrom {shown : List (String × Field)}
    (isRow : (names, found) ∈ shown.flatMap (rowsFrom showPrivate)) :
    ∃ name rest, names = name :: rest := by
  obtain ⟨entry, _, isRow⟩ := List.mem_flatMap.mp isRow
  obtain ⟨rest, isCons, _⟩ := mem_rowsFrom_iff.mp isRow
  exact ⟨entry.1, rest, isCons⟩

theorem exists_head_of_mem_shownBelow (isRow : (names, found) ∈ field.shownBelow showPrivate) :
    ∃ name rest, names = name :: rest := by
  cases isNested : field.nested? with
  | none => simp [field.shownBelow_of_nested?_eq_none isNested] at isRow
  | some nested =>
      rw [(Field.nested?_eq_some_iff.mp isNested).shownBelow_eq] at isRow
      exact exists_head_of_mem_flatMap_rowsFrom isRow

theorem Field.showsAt_nil_iff : field.ShowsAt showPrivate [] found ↔ found = field := by
  constructor
  · rintro ⟨_, _, isFound⟩
    exact (Option.some.inj isFound).symm
  · rintro rfl
    exact ⟨trivial, by simp, rfl⟩

/-- A document shows what its visible fields show. -/
theorem Field.Holds.showsAt_cons_iff (holds : field.Holds nested) (dotFree : field.NamesDotFree)
    {name : String} {rest : List String} :
    field.ShowsAt showPrivate (name :: rest) found ↔
      ∃ member, (name, member) ∈ nested.visible showPrivate ∧
        member.ShowsAt showPrivate rest found := by
  have documentDotFree := holds.namesDotFree dotFree
  have isNested := nested?_eq_some_iff.mpr holds
  simp only [documentDotFree.mem_visible_iff]
  constructor
  · rintro ⟨⟨shown, member, isShown, isName, isMember, shows⟩, isWanted, isFound⟩
    obtain rfl := holds.unique (nested?_eq_some_iff.mp isShown)
    obtain ⟨isPublic, isWanted⟩ := List.forall_mem_cons.mp isWanted
    have isVisible := (documentDotFree.mem_namesIn_iff.mp isName).1
    have isShown := Embedded.isVisible_iff.mpr ⟨isVisible, isPublic⟩
    refine ⟨member, ⟨isShown, isMember⟩, shows, isWanted, ?_⟩
    simpa [descend?, isNested, isMember] using isFound
  · rintro ⟨member, ⟨isVisible, isMember⟩, shows, isWanted, isFound⟩
    obtain ⟨isVisible, isPublic⟩ := Embedded.isVisible_iff.mp isVisible
    have isName := documentDotFree.mem_namesIn_iff.mpr ⟨isVisible, member, isMember⟩
    refine ⟨⟨nested, member, isNested, isName, isMember, shows⟩,
      List.forall_mem_cons.mpr ⟨isPublic, isWanted⟩, ?_⟩
    simpa [descend?, isNested, isMember] using isFound

theorem Field.Shows.dotFree (shows : field.Shows names) (dotFree : field.NamesDotFree) :
    ∀ name ∈ names, '.' ∉ name.toList := by
  induction names generalizing field with
  | nil => simp
  | cons name rest inductionHypothesis =>
      obtain ⟨nested, member, isNested, isName, isMember, shows⟩ := shows
      have holds := nested?_eq_some_iff.mp isNested
      have documentDotFree := holds.namesDotFree dotFree
      have isVisible := documentDotFree.mem_visible_iff.mpr
        ⟨(documentDotFree.mem_namesIn_iff.mp isName).1, isMember⟩
      have levels := holds.namesDotFree_visible dotFree true
      exact List.forall_mem_cons.mpr ⟨levels.top.dotFree name isName,
        inductionHypothesis shows (levels.below (name, member) isVisible)⟩

/-- Which rows begin with the entries of a mapping, if it is known which ones are below each. -/
theorem cons_mem_flatMap_rowsFrom_iff {shown : List (String × Field)} {name : String}
    {rest : List String}
    (isBelow : ∀ member, (name, member) ∈ shown →
      ((rest, found) ∈ member.shownBelow showPrivate ↔
        rest ≠ [] ∧ member.ShowsAt showPrivate rest found)) :
    (name :: rest, found) ∈ shown.flatMap (rowsFrom showPrivate) ↔
      ∃ member, (name, member) ∈ shown ∧ member.ShowsAt showPrivate rest found := by
  have isShown : ∀ member, (name, member) ∈ shown →
      ((rest = [] ∧ found = member ∨ (rest, found) ∈ member.shownBelow showPrivate) ↔
        member.ShowsAt showPrivate rest found) := by
    intro member isEntry
    rw [isBelow member isEntry]
    cases rest with
    | nil => simp [Field.showsAt_nil_iff]
    | cons next later => simp
  rw [List.mem_flatMap]
  constructor
  · rintro ⟨⟨first, member⟩, isEntry, isRow⟩
    obtain ⟨others, same, isRow⟩ := mem_rowsFrom_iff.mp isRow
    obtain ⟨rfl, rfl⟩ := List.cons.inj same
    exact ⟨member, isEntry, (isShown member isEntry).mp isRow⟩
  · rintro ⟨member, isEntry, showsAt⟩
    have isRow := (isShown member isEntry).mpr showsAt
    exact ⟨(name, member), isEntry, mem_rowsFrom_iff.mpr ⟨rest, rfl, isRow⟩⟩

/-- The rows below a field are those of visible names that a look-up follows. -/
theorem Field.mem_shownBelow_iff (dotFree : field.NamesDotFree) :
    (names, found) ∈ field.shownBelow showPrivate ↔
      names ≠ [] ∧ field.ShowsAt showPrivate names found := by
  -- A look-up takes one name for each document, so that the induction follows the names.
  induction names generalizing field with
  | nil =>
      refine iff_of_false (fun isRow => ?_) fun impossible => impossible.1 rfl
      obtain ⟨name, rest, impossible⟩ := exists_head_of_mem_shownBelow isRow
      contradiction
  | cons name rest inductionHypothesis =>
      cases isNested : field.nested? with
      | none =>
          have isHidden : ¬ field.Shows (name :: rest) := by simp [Shows, isNested]
          simp only [field.shownBelow_of_nested?_eq_none isNested, List.not_mem_nil, false_iff]
          exact fun shown => isHidden shown.2.shows
      | some nested =>
          have holds := nested?_eq_some_iff.mp isNested
          have levels := holds.namesDotFree_visible dotFree showPrivate
          rw [holds.shownBelow_eq, holds.showsAt_cons_iff dotFree,
            cons_mem_flatMap_rowsFrom_iff fun member isEntry =>
              inductionHypothesis (levels.below (name, member) isEntry)]
          simp

/-! ## Their order -/

theorem Precedes.exists_head {names others : List String}
    (precedes : Precedes fields names others) :
    (∃ first rest, names = first :: rest) ∧ ∃ second rest, others = second :: rest := by
  cases precedes with
  | continued name nonempty => exact ⟨⟨_, _, rfl⟩, _, _, rfl⟩
  | parted inOrder => exact ⟨⟨_, _, rfl⟩, _, _, rfl⟩
  | inside isFound holds precedes => exact ⟨⟨_, _, rfl⟩, _, _, rfl⟩

/-- The rows that begin with the entries of a part of a mapping are in order, if those below each
entry are. -/
theorem pairwise_precedes_rowsFrom {shown : List (String × Field)}
    (distinct : (Mapping.keys fields).Nodup) (isPart : shown.Sublist fields)
    (areOrdered : ∀ entry ∈ shown, ∀ nested, entry.2.Holds nested →
      ((entry.2.shownBelow showPrivate).map Prod.fst).Pairwise (Precedes (nested.visible true))) :
    ((shown.flatMap (rowsFrom showPrivate)).map Prod.fst).Pairwise (Precedes fields) := by
  rw [List.map_flatMap, List.pairwise_flatMap]
  constructor
  · intro entry isEntry
    have isFound := Mapping.lookup_of_mem distinct (isPart.subset isEntry)
    simp only [rowsFrom, List.map_cons, List.map_map, List.pairwise_cons, List.pairwise_map]
    constructor
    · intro names isMapped
      obtain ⟨⟨below, found⟩, isRow, rfl⟩ := List.mem_map.mp isMapped
      obtain ⟨name, rest, isCons⟩ := exists_head_of_mem_shownBelow isRow
      exact .continued fields entry.1 (isCons ▸ List.cons_ne_nil name rest)
    · cases isNested : entry.2.nested? with
      | none => simp [Field.shownBelow_of_nested?_eq_none isNested]
      | some nested =>
          have holds := Field.nested?_eq_some_iff.mp isNested
          have below := List.pairwise_map.mp (areOrdered entry isEntry nested holds)
          exact below.imp fun precedes => .inside isFound holds precedes
  · rw [List.pairwise_iff_forall_sublist]
    intro first second inOrder names isFirst others isSecond
    have keysInOrder : [first.1, second.1].Sublist (Mapping.keys fields) :=
      (inOrder.trans isPart).map Prod.fst
    obtain ⟨⟨_, _⟩, isRow, rfl⟩ := List.mem_map.mp isFirst
    obtain ⟨_, rfl, _⟩ := mem_rowsFrom_iff.mp isRow
    obtain ⟨⟨_, _⟩, isRow, rfl⟩ := List.mem_map.mp isSecond
    obtain ⟨_, rfl, _⟩ := mem_rowsFrom_iff.mp isRow
    exact .parted keysInOrder _ _

/-- The rows below a field are listed in the depth-first order of what it shows. -/
theorem Field.Holds.pairwise_precedes_shownBelow {field : Field} {nested : Embedded}
    (holds : field.Holds nested) (dotFree : field.NamesDotFree) (showPrivate : Bool) :
    ((field.shownBelow showPrivate).map Prod.fst).Pairwise (Precedes (nested.visible true)) := by
  rw [holds.shownBelow_eq]
  have levels := holds.namesDotFree_visible dotFree showPrivate
  apply pairwise_precedes_rowsFrom (holds.namesDotFree_visible dotFree true).top.distinct
    (nested.visible_sublist_visible_true showPrivate)
  intro entry isEntry inner isInner
  -- An entry of a view is no part of the field's own mapping, but it is smaller all the same.
  have smaller := holds.sizeOf_visible_lt isEntry
  exact isInner.pairwise_precedes_shownBelow (levels.below entry isEntry) showPrivate
termination_by sizeOf field

theorem not_sublist_swap {first second : String} {names : List String} (distinct : names.Nodup)
    (inOrder : [first, second].Sublist names) : ¬ [second, first].Sublist names := by
  induction distinct with
  | nil => simp at inOrder
  | @cons name rest isFresh distinct inductionHypothesis =>
      grind [List.cons_sublist_cons']

/-- No row comes before another that comes before it. -/
theorem Precedes.asymm {names others : List String} (precedes : Precedes fields names others)
    (dotFree : Schema.NamesDotFree fields) : ¬ Precedes fields others names := by
  induction precedes with
  | continued fields name nonempty =>
      intro back
      cases back with
      | continued => contradiction
      | parted inOrder => exact not_sublist_swap dotFree.top.distinct inOrder inOrder
      | inside _ _ impossible =>
          obtain ⟨_, _, _, impossible⟩ := impossible.exists_head
          contradiction
  | @parted fields first second inOrder names others =>
      intro back
      cases back with
      | continued => exact not_sublist_swap dotFree.top.distinct inOrder inOrder
      | parted inverse => exact not_sublist_swap dotFree.top.distinct inOrder inverse
      | inside => exact not_sublist_swap dotFree.top.distinct inOrder inOrder
  | @inside fields name field nested names others isFound holds precedes inductionHypothesis =>
      intro back
      have below := dotFree.below (name, field) (Mapping.mem_of_lookup isFound)
      cases back with
      | continued =>
          obtain ⟨_, _, _, impossible⟩ := precedes.exists_head
          contradiction
      | parted inOrder => exact not_sublist_swap dotFree.top.distinct inOrder inOrder
      | inside isFound' holds' back =>
          obtain rfl := Option.some.inj (isFound.symm.trans isFound')
          obtain rfl := holds.unique holds'
          exact inductionHypothesis (holds.namesDotFree_visible below true) back

end Listing

end SchemaTree
