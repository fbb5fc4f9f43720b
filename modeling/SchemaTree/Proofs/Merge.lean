import SchemaTree.Merge
import SchemaTree.Proofs.Field.Listing
import SchemaTree.Proofs.FieldType
import SchemaTree.Proofs.Mapping
import SchemaTree.Proofs.Path
import SchemaTree.Proofs.Traverse

/-!
What a successful merge did.  A merge goes through the incoming fields in order: one that the
existing side lacks is added, and one that both sides have is passed over or, if both are embedded
documents or lists of them, entered.  The relation `Merges` has one rule for each, and speaks of
rows of names where the merge has dotted paths.
-/

namespace SchemaTree

/-- The documents of two fields that a merge enters: both fields are embedded documents, or lists
of them. -/
inductive Counterparts : Field → Field → Embedded → Embedded → Prop
  | documents (left right : Attributes) (outer inner : Embedded) :
      Counterparts ⟨left, .embedded outer⟩ ⟨right, .embedded inner⟩ outer inner
  | lists (left right leftElement rightElement : Attributes) (leftFlavor rightFlavor : ListFlavor)
      (outer inner : Embedded) :
      Counterparts ⟨left, .list leftFlavor (some ⟨leftElement, .embedded outer⟩)⟩
        ⟨right, .list rightFlavor (some ⟨rightElement, .embedded inner⟩)⟩ outer inner

/-- Whether an incoming field can stand in for an existing one: its type descends from the existing
one, its document type derives from the existing one, and its element can stand in for the
existing one, where both have one. -/
inductive Field.Fits : Field → Field → Prop
  | intro {incoming existing : Field}
      (type : incoming.type.isSubtypeOf existing.type = true)
      (documentType : ∀ inner outer, incoming.embedded? = some inner →
        existing.embedded? = some outer →
          inner.documentType.isSubclassOf outer.documentType = true)
      (element : ∀ inner outer, incoming.element = some inner → existing.element = some outer →
        inner.Fits outer) : incoming.Fits existing

/-- Whether a merge passes over two fields, wherever they are. -/
structure Apart (validate : Bool) (existing incoming : Field) : Prop where
  unrelated : ∀ outer inner, ¬Counterparts existing incoming outer inner
  passed : ∀ path, Field.additions validate path existing incoming = .ok []

/-- How a merge succeeds.  The rows are those of the names and fields that are added. -/
inductive Merges (validate recursive : Bool) :
    List (String × Field) → List (String × Field) → List (List String × Field) → Prop
  | nil (existing : List (String × Field)) : Merges validate recursive existing [] []
  | missing {existing rest : List (String × Field)} {name : String} {incoming : Field}
      {rows : List (List String × Field)} (isMissing : Mapping.lookup existing name = none)
      (others : Merges validate recursive existing rest rows) :
      Merges validate recursive existing ((name, incoming) :: rest) (([name], incoming) :: rows)
  | pass {existing rest : List (String × Field)} {name : String} {field incoming : Field}
      {rows : List (List String × Field)} (isFound : Mapping.lookup existing name = some field)
      (fits : validate = true → incoming.Fits field)
      (isApart : recursive = true → Apart validate field incoming)
      (others : Merges validate recursive existing rest rows) :
      Merges validate recursive existing ((name, incoming) :: rest) rows
  | enter {existing rest : List (String × Field)} {name : String} {field incoming : Field}
      {outer inner : Embedded} {below rows : List (List String × Field)}
      (isRecursive : recursive = true) (isFound : Mapping.lookup existing name = some field)
      (fits : validate = true → incoming.Fits field)
      (counterparts : Counterparts field incoming outer inner)
      (derives : validate = true → inner.documentType.isSubclassOf outer.documentType = true)
      (nested : Merges validate recursive outer.fields inner.fields below)
      (others : Merges validate recursive existing rest rows) :
      Merges validate recursive existing ((name, incoming) :: rest)
        (below.map (fun row => (name :: row.1, row.2)) ++ rows)

theorem Counterparts.left {existing incoming : Field} {outer inner : Embedded}
    (counterparts : Counterparts existing incoming outer inner) : existing.Holds outer := by
  cases counterparts with
  | documents => exact .document _ _
  | lists => exact .list _ _ _ _

theorem Counterparts.right {existing incoming : Field} {outer inner : Embedded}
    (counterparts : Counterparts existing incoming outer inner) : incoming.Holds inner := by
  cases counterparts with
  | documents => exact .document _ _
  | lists => exact .list _ _ _ _

/-! ## Checks -/

theorem checkTypes_eq_ok_iff {path : String} {incoming existing : Field} :
    checkTypes path incoming existing = .ok () ↔
      incoming.type.isSubtypeOf existing.type = true ∧
        ∀ inner outer, incoming.embedded? = some inner → existing.embedded? = some outer →
          inner.documentType.isSubclassOf outer.documentType = true := by
  unfold checkTypes
  by_cases fits : incoming.type.isSubtypeOf existing.type = true
  · rw [if_pos fits, and_iff_right fits]
    cases incoming.embedded? with
    | none => simp
    | some inner =>
        cases existing.embedded? with
        | none => simp
        | some outer =>
            by_cases derives : inner.documentType.isSubclassOf outer.documentType = true <;>
              simp [derives]
  · simp [fits]

theorem checkFit_of_element {path : String} {incoming existing element : Field}
    (isElement : incoming.element = some element) :
    checkFit path incoming existing = (checkTypes path incoming existing).bind fun _ =>
      existing.element.elim (.ok ()) (checkFit path element) := by
  obtain ⟨attributes, kind⟩ := incoming
  cases kind with
  | list flavor inner =>
      cases isElement
      rw [checkFit]
      cases existing.element <;> rfl
  | dict flavor inner =>
      cases isElement
      rw [checkFit]
      cases existing.element <;> rfl
  | _ => contradiction

theorem checkFit_of_plain {path : String} {incoming existing : Field}
    (plain : incoming.element = none) :
    checkFit path incoming existing = checkTypes path incoming existing := by
  obtain ⟨attributes, kind⟩ := incoming
  cases kind with
  | list flavor inner =>
      cases plain
      rfl
  | dict flavor inner =>
      cases plain
      rfl
  | _ => rfl

/-- One level of a check: the types, and the elements if both fields have one. -/
theorem checkFit_eq_ok_iff {path : String} {incoming existing : Field} :
    checkFit path incoming existing = .ok () ↔
      checkTypes path incoming existing = .ok () ∧
        ∀ inner outer, incoming.element = some inner → existing.element = some outer →
          checkFit path inner outer = .ok () := by
  cases isElement : incoming.element with
  | none => simp [checkFit_of_plain isElement]
  | some element =>
      rw [checkFit_of_element isElement, bind_eq_ok_iff]
      cases existing.element with
      | none =>
          constructor
          · rintro ⟨_, typed, _⟩
            exact ⟨typed, by simp⟩
          · rintro ⟨typed, _⟩
            exact ⟨(), typed, rfl⟩
      | some other =>
          constructor
          · rintro ⟨_, typed, fits⟩
            refine ⟨typed, ?_⟩
            rintro inner outer ⟨⟩ ⟨⟩
            exact fits
          · rintro ⟨typed, each⟩
            exact ⟨(), typed, each element other rfl rfl⟩

theorem Field.fits_of_checkFit {path : String} (incoming existing : Field)
    (checked : checkFit path incoming existing = .ok ()) : incoming.Fits existing := by
  obtain ⟨typed, elements⟩ := checkFit_eq_ok_iff.mp checked
  obtain ⟨type, documentType⟩ := checkTypes_eq_ok_iff.mp typed
  refine .intro type documentType fun inner outer isInner isOuter => ?_
  exact fits_of_checkFit inner outer (elements inner outer isInner isOuter)
termination_by sizeOf incoming
decreasing_by exact sizeOf_element_lt isInner

theorem checkFit_eq_ok_iff_fits {path : String} {incoming existing : Field} :
    checkFit path incoming existing = .ok () ↔ incoming.Fits existing := by
  constructor
  · exact Field.fits_of_checkFit incoming existing
  · intro fits
    induction fits with
    | intro type documentType element inductionHypothesis =>
        exact checkFit_eq_ok_iff.mpr
          ⟨checkTypes_eq_ok_iff.mpr ⟨type, documentType⟩, inductionHypothesis⟩

theorem Field.exists_embedded?_iff {field : Field} :
    (∃ nested, field.embedded? = some nested) ↔ field.type = .embeddedDocument := by
  obtain ⟨attributes, kind⟩ := field
  cases kind with
  | embedded nested => exact ⟨fun _ => rfl, fun _ => ⟨nested, rfl⟩⟩
  | list flavor element => cases flavor <;> exact ⟨nofun, nofun⟩
  | dict flavor element => cases flavor <;> exact ⟨nofun, nofun⟩
  | geo geometry => cases geometry <;> exact ⟨nofun, nofun⟩
  | _ => exact ⟨nofun, nofun⟩

theorem Field.type_ne_root (field : Field) : field.type ≠ .field := by
  obtain ⟨attributes, kind⟩ := field
  cases kind with
  | list flavor element => cases flavor <;> nofun
  | dict flavor element => cases flavor <;> nofun
  | geo geometry => cases geometry <;> nofun
  | _ => nofun

/-- Of two fields whose types are related, both are embedded documents or neither is. -/
theorem Field.exists_embedded?_of_isSubtypeOf {field other : Field}
    (isSubtype : field.type.isSubtypeOf other.type = true) :
    (∃ nested, field.embedded? = some nested) ↔ ∃ nested, other.embedded? = some nested := by
  rw [exists_embedded?_iff, exists_embedded?_iff]
  exact FieldType.isSubtypeOf_embeddedDocument isSubtype other.type_ne_root

/-! ## Entering two fields -/

section Additions

variable {validate : Bool} {path : String} {existing incoming : Field} {outer inner : Embedded}

theorem Field.isList_iff {field : Field} :
    field.isList = true ↔
      ∃ attributes flavor element, field = ⟨attributes, .list flavor element⟩ := by
  constructor
  · intro isList
    obtain ⟨attributes, kind⟩ := field
    cases kind with
    | list flavor element => exact ⟨attributes, flavor, element, rfl⟩
    | dict flavor element => cases flavor <;> contradiction
    | geo geometry => cases geometry <;> contradiction
    | _ => contradiction
  · rintro ⟨attributes, flavor, element, rfl⟩
    cases flavor <;> rfl

theorem Embedded.additions_eq_ok_iff {added : List (String × Field)} :
    Embedded.additions validate path outer inner = .ok added ↔
      (validate = true → inner.documentType.isSubclassOf outer.documentType = true) ∧
        entryAdditions validate true (some path) outer.fields inner.fields = .ok added := by
  obtain ⟨documentType, declared, displaced, fields, view⟩ := inner
  rw [Embedded.additions]
  cases validate <;> cases documentType.isSubclassOf outer.documentType <;> simp

theorem additions_of_counterparts (counterparts : Counterparts existing incoming outer inner) :
    Field.additions validate path existing incoming =
      Embedded.additions validate path outer inner := by
  cases counterparts with
  | documents left right => rfl
  | lists left right leftElement rightElement leftFlavor rightFlavor =>
      have isList (attributes : Attributes) (flavor : ListFlavor) (element : Option Field) :
          Field.isList ⟨attributes, .list flavor element⟩ = true :=
        Field.isList_iff.mpr ⟨attributes, flavor, element, rfl⟩
      simp only [Field.additions, mergeTarget?, isList, if_true]
      rfl

theorem of_mergeTarget?_eq_some {target : Embedded}
    (isTarget : mergeTarget? existing incoming = some target) :
    (∃ attributes, existing = ⟨attributes, .embedded target⟩) ∨
      (∃ attributes flavor element,
        existing = ⟨attributes, .list flavor (some ⟨element, .embedded target⟩)⟩) ∧
      ∃ attributes flavor element, incoming = ⟨attributes, .list flavor element⟩ := by
  unfold mergeTarget? at isTarget
  by_cases isList : existing.isList = true
  · rw [if_pos isList] at isTarget
    by_cases bothLists : incoming.isList = true
    · rw [if_pos bothLists] at isTarget
      obtain ⟨attributes, flavor, element, rfl⟩ := Field.isList_iff.mp isList
      obtain ⟨inner, rfl, isEmbedded⟩ := Option.bind_eq_some_iff.mp isTarget
      obtain ⟨innerAttributes, rfl⟩ := Field.embedded?_eq_some_iff.mp isEmbedded
      exact .inr ⟨⟨attributes, flavor, innerAttributes, rfl⟩, Field.isList_iff.mp bothLists⟩
    · rw [if_neg bothLists] at isTarget
      contradiction
  · rw [if_neg isList] at isTarget
    exact .inl (Field.embedded?_eq_some_iff.mp isTarget)

theorem additions_of_mergeTarget?_eq_none (noTarget : mergeTarget? existing incoming = none) :
    Field.additions validate path existing incoming = .ok [] := by
  unfold Field.additions
  split <;> rw [noTarget]

theorem passed_or_refused_of_refuse (target : Embedded) (incoming : Field) :
    (∀ path, refuse validate path target incoming = .ok []) ∨
      validate = true ∧ ∀ path, ∃ error, refuse validate path target incoming = .error error := by
  cases validate with
  | false => exact .inl fun _ => rfl
  | true => exact .inr ⟨rfl, fun _ => ⟨_, rfl⟩⟩

/-- Two fields that a merge does not enter are passed over at all paths, or are refused at all of
them. -/
theorem passed_or_refused (unrelated : ∀ outer inner, ¬Counterparts existing incoming outer inner) :
    (∀ path, Field.additions validate path existing incoming = .ok []) ∨
      validate = true ∧
        ∀ path, ∃ error, Field.additions validate path existing incoming = .error error := by
  cases isTarget : mergeTarget? existing incoming with
  | none => exact .inl fun _ => additions_of_mergeTarget?_eq_none isTarget
  | some target =>
      rcases of_mergeTarget?_eq_some isTarget with
        ⟨attributes, rfl⟩ | ⟨⟨attributes, flavor, inner, rfl⟩, other, otherFlavor, element, rfl⟩
      · obtain ⟨attributes, kind⟩ := incoming
        cases kind with
        | embedded inner => exact absurd (.documents _ _ _ _) (unrelated target inner)
        | list flavor element =>
            rcases element with - | ⟨elementAttributes, elementKind⟩
            · exact passed_or_refused_of_refuse target _
            · cases elementKind <;> exact passed_or_refused_of_refuse target _
        | _ => exact passed_or_refused_of_refuse target _
      · have isList : Field.isList ⟨attributes, .list flavor (some ⟨inner, .embedded target⟩)⟩ =
            true := Field.isList_iff.mpr ⟨_, _, _, rfl⟩
        rcases element with - | ⟨elementAttributes, elementKind⟩
        · left
          simp only [Field.additions, isTarget, isList, Field.element, if_true, implies_true]
        · cases elementKind with
          | embedded inner => exact absurd (.lists _ _ _ _ _ _ _ _) (unrelated target inner)
          | _ =>
              simp only [Field.additions, isTarget, isList, Field.element, if_true]
              exact passed_or_refused_of_refuse target _

/-! ## Fields that fit -/

theorem Field.Fits.exists_embedded (fits : incoming.Fits existing)
    (isEmbedded : existing.embedded? = some outer) : ∃ inner, incoming.embedded? = some inner := by
  obtain ⟨type, _, _⟩ := fits
  exact (exists_embedded?_of_isSubtypeOf type).mpr ⟨outer, isEmbedded⟩

theorem Counterparts.derives (counterparts : Counterparts existing incoming outer inner)
    (fits : incoming.Fits existing) :
    inner.documentType.isSubclassOf outer.documentType = true := by
  obtain ⟨_, documentType, element⟩ := fits
  cases counterparts with
  | documents => exact documentType inner outer rfl rfl
  | lists =>
      obtain ⟨_, ofElement, _⟩ := element _ _ rfl rfl
      exact ofElement inner outer rfl rfl

theorem Field.Fits.apart (fits : incoming.Fits existing)
    (unrelated : ∀ outer inner, ¬Counterparts existing incoming outer inner) :
    Apart validate existing incoming := by
  refine ⟨unrelated, fun path => ?_⟩
  cases isTarget : mergeTarget? existing incoming with
  | none => exact additions_of_mergeTarget?_eq_none isTarget
  | some target =>
      rcases of_mergeTarget?_eq_some isTarget with
        ⟨attributes, rfl⟩ | ⟨⟨attributes, flavor, inner, rfl⟩, other, otherFlavor, element, rfl⟩
      · obtain ⟨inner, isInner⟩ := fits.exists_embedded rfl
        obtain ⟨_, rfl⟩ := embedded?_eq_some_iff.mp isInner
        exact absurd (.documents _ _ _ _) (unrelated target inner)
      · rcases element with - | element
        · have isList : Field.isList ⟨attributes, .list flavor (some ⟨inner, .embedded target⟩)⟩ =
              true := Field.isList_iff.mpr ⟨_, _, _, rfl⟩
          simp only [Field.additions, isTarget, isList, Field.element, if_true]
        · obtain ⟨_, _, ofElement⟩ := fits
          obtain ⟨nested, isNested⟩ := (ofElement _ _ rfl rfl).exists_embedded rfl
          obtain ⟨_, rfl⟩ := embedded?_eq_some_iff.mp isNested
          exact absurd (.lists _ _ _ _ _ _ _ _) (unrelated target nested)

/-- Two fields that fit, if they are checked, are entered or passed over. -/
theorem Apart.of_fits (fits : validate = true → incoming.Fits existing)
    (unrelated : ∀ outer inner, ¬Counterparts existing incoming outer inner) :
    Apart validate existing incoming := by
  rcases passed_or_refused unrelated with passed | ⟨isChecked, _⟩
  · exact ⟨unrelated, passed⟩
  · exact (fits isChecked).apart unrelated

end Additions

/-! ## Runs of a merge -/

/-- The entries that a merge at a path adds for rows of names and fields. -/
def entriesOfRows (path : Option String) (rows : List (List String × Field)) :
    List (String × Field) :=
  rows.map fun row => (Path.join path (Path.dotted row.1), row.2.copy)

section Runs

variable {validate recursive : Bool} {existing incoming : List (String × Field)}
variable {rows : List (List String × Field)}

theorem Merges.names_ne_nil (merges : Merges validate recursive existing incoming rows) :
    ∀ row ∈ rows, row.1 ≠ [] := by
  induction merges with
  | nil => simp
  | missing _ _ others => simpa using others
  | pass _ _ _ _ others => exact others
  | enter _ _ _ _ _ _ _ _ others =>
      intro row isRow
      rcases List.mem_append.mp isRow with isBelow | inRest
      · obtain ⟨below, _, rfl⟩ := List.mem_map.mp isBelow
        exact List.cons_ne_nil _ _
      · exact others row inRest

theorem entriesOfRows_below {path : Option String} {name : String}
    (nonempty : ∀ row ∈ rows, row.1 ≠ []) :
    entriesOfRows path (rows.map fun row => (name :: row.1, row.2)) =
      entriesOfRows (some (Path.join path name)) rows := by
  rw [entriesOfRows, entriesOfRows, List.map_map]
  refine List.map_congr_left fun row isRow => ?_
  simp only [Function.comp, Path.join_dotted_cons path name (nonempty row isRow)]

theorem entryAdditions_of_missing {path : Option String} {name : String} {field : Field}
    {rest added : List (String × Field)} (isMissing : Mapping.lookup existing name = none) :
    entryAdditions validate recursive path existing ((name, field) :: rest) = .ok added ↔
      ∃ others, entryAdditions validate recursive path existing rest = .ok others ∧
        (Path.join path name, field.copy) :: others = added := by
  simp only [entryAdditions, isMissing]
  exact map_eq_ok_iff

theorem entryAdditions_of_found {path : Option String} {name : String} {found field : Field}
    {rest added : List (String × Field)} (isFound : Mapping.lookup existing name = some found) :
    entryAdditions validate recursive path existing ((name, field) :: rest) = .ok added ↔
      (validate = true → field.Fits found) ∧ ∃ below others,
        (if recursive then Field.additions validate (Path.join path name) found field
          else .ok []) = .ok below ∧
        entryAdditions validate recursive path existing rest = .ok others ∧
        below ++ others = added := by
  have checked : (if validate then checkFit (Path.join path name) field found else .ok ()) =
      .ok () ↔ (validate = true → field.Fits found) := by
    cases validate <;> simp [checkFit_eq_ok_iff_fits]
  simp only [entryAdditions, isFound, bind_eq_ok_iff, map_eq_ok_iff]
  constructor
  · rintro ⟨below, ⟨_, fits, isBelow⟩, others, areOthers, rfl⟩
    exact ⟨checked.mp fits, below, others, isBelow, areOthers, rfl⟩
  · rintro ⟨fits, below, others, isBelow, areOthers, rfl⟩
    exact ⟨below, ⟨(), checked.mpr fits, isBelow⟩, others, areOthers, rfl⟩

/-- A merge by the rules succeeds. -/
theorem Merges.entryAdditions_eq_ok (merges : Merges validate recursive existing incoming rows)
    (path : Option String) :
    entryAdditions validate recursive path existing incoming =
      .ok (entriesOfRows path rows) := by
  induction merges generalizing path with
  | nil => rfl
  | missing isMissing _ inductionHypothesis =>
      refine (entryAdditions_of_missing isMissing).mpr ⟨_, inductionHypothesis path, ?_⟩
      simp [entriesOfRows]
  | pass isFound fits isApart _ inductionHypothesis =>
      refine (entryAdditions_of_found isFound).mpr
        ⟨fits, [], _, ?_, inductionHypothesis path, rfl⟩
      split
      · next isRecursive => exact (isApart isRecursive).passed _
      · rfl
  | @enter existing rest name field incoming outer inner below rows isRecursive isFound fits
      counterparts derives nested _ nestedHypothesis inductionHypothesis =>
      refine (entryAdditions_of_found isFound).mpr
        ⟨fits, entriesOfRows path (below.map fun row => (name :: row.1, row.2)), _, ?_,
          inductionHypothesis path, ?_⟩
      · subst isRecursive
        rw [if_pos rfl, additions_of_counterparts counterparts, Embedded.additions_eq_ok_iff,
          entriesOfRows_below nested.names_ne_nil]
        exact ⟨derives, nestedHypothesis _⟩
      · exact List.map_append.symm

theorem exists_merges {recursive : Bool} {path : Option String}
    {existing added : List (String × Field)} (incoming : List (String × Field))
    (merged : entryAdditions validate recursive path existing incoming = .ok added) :
    ∃ rows, Merges validate recursive existing incoming rows := by
  match incoming with
  | [] => exact ⟨[], .nil existing⟩
  | (name, field) :: rest =>
      cases isFound : Mapping.lookup existing name with
      | none =>
          obtain ⟨others, areOthers, _⟩ := (entryAdditions_of_missing isFound).mp merged
          obtain ⟨rows, merges⟩ := exists_merges rest areOthers
          exact ⟨_, .missing isFound merges⟩
      | some found =>
          obtain ⟨fits, below, others, isBelow, areOthers, _⟩ :=
            (entryAdditions_of_found isFound).mp merged
          obtain ⟨rows, merges⟩ := exists_merges rest areOthers
          cases isRecursive : recursive with
          | false =>
              subst isRecursive
              exact ⟨_, .pass isFound fits nofun merges⟩
          | true =>
              subst isRecursive
              rw [if_pos rfl] at isBelow
              by_cases related : ∃ outer inner, Counterparts found field outer inner
              · obtain ⟨outer, inner, counterparts⟩ := related
                rw [additions_of_counterparts counterparts, Embedded.additions_eq_ok_iff]
                  at isBelow
                have smaller := counterparts.right.sizeOf_lt
                obtain ⟨nestedRows, nested⟩ := exists_merges inner.fields isBelow.2
                exact ⟨_, .enter rfl isFound fits counterparts isBelow.1 nested merges⟩
              · have unrelated : ∀ outer inner, ¬Counterparts found field outer inner :=
                  fun outer inner counterparts => related ⟨outer, inner, counterparts⟩
                rcases passed_or_refused unrelated with passed | ⟨_, refused⟩
                · exact ⟨_, .pass isFound fits (fun _ => ⟨unrelated, passed⟩) merges⟩
                · obtain ⟨error, isRefused⟩ := refused (Path.join path name)
                  rw [isRefused] at isBelow
                  contradiction
termination_by sizeOf incoming

/-- A merge succeeds exactly by the rules, with the rows that these give. -/
theorem entryAdditions_eq_ok_iff {path : Option String} {added : List (String × Field)} :
    entryAdditions validate recursive path existing incoming = .ok added ↔
      ∃ rows, Merges validate recursive existing incoming rows ∧
        entriesOfRows path rows = added := by
  constructor
  · intro merged
    obtain ⟨rows, merges⟩ := exists_merges incoming merged
    rw [merges.entryAdditions_eq_ok path, Except.ok.injEq] at merged
    exact ⟨rows, merges, merged⟩
  · rintro ⟨rows, merges, rfl⟩
    exact merges.entryAdditions_eq_ok path

/-- A relation of two levels under which no check fails: fields of one name fit, if they are
checked, and the relation carries over to later fields and to the levels that are entered. -/
structure Passable (validate : Bool)
    (holds : List (String × Field) → List (String × Field) → Prop) : Prop where
  tail {existing rest : List (String × Field)} {entry : String × Field} :
    holds existing (entry :: rest) → holds existing rest
  fits {existing rest : List (String × Field)} {name : String} {left right : Field} :
    holds existing ((name, right) :: rest) → Mapping.lookup existing name = some left →
      validate = true → right.Fits left
  below {existing rest : List (String × Field)} {name : String} {left right : Field}
    {outer inner : Embedded} :
    holds existing ((name, right) :: rest) → Mapping.lookup existing name = some left →
      Counterparts left right outer inner → holds outer.fields inner.fields

/-- A merge succeeds if no check fails. -/
theorem Passable.exists_merges {holds : List (String × Field) → List (String × Field) → Prop}
    (passable : Passable validate holds) (recursive : Bool)
    (existing incoming : List (String × Field)) (related : holds existing incoming) :
    ∃ rows, Merges validate recursive existing incoming rows := by
  match incoming with
  | [] => exact ⟨[], .nil existing⟩
  | (name, field) :: rest =>
      obtain ⟨rows, merges⟩ :=
        passable.exists_merges recursive existing rest (passable.tail related)
      cases isFound : Mapping.lookup existing name with
      | none => exact ⟨_, .missing isFound merges⟩
      | some found =>
          have fits : validate = true → field.Fits found := passable.fits related isFound
          by_cases entered : recursive = true ∧ ∃ outer inner, Counterparts found field outer inner
          · obtain ⟨isRecursive, outer, inner, counterparts⟩ := entered
            have smaller := counterparts.right.sizeOf_lt
            obtain ⟨nestedRows, nested⟩ := passable.exists_merges recursive outer.fields
              inner.fields (passable.below related isFound counterparts)
            exact ⟨_, .enter isRecursive isFound fits counterparts
              (fun isChecked => counterparts.derives (fits isChecked)) nested merges⟩
          · refine ⟨_, .pass isFound fits (fun isRecursive => .of_fits fits ?_) merges⟩
            exact fun outer inner counterparts =>
              entered ⟨isRecursive, outer, inner, counterparts⟩
termination_by sizeOf incoming

/-- Without checks, a merge succeeds. -/
theorem exists_merges_unchecked (recursive : Bool) (existing incoming : List (String × Field)) :
    ∃ rows, Merges false recursive existing incoming rows := by
  have passable : Passable false fun _ _ => True := ⟨fun _ => trivial, nofun, fun _ _ _ => trivial⟩
  exact passable.exists_merges recursive existing incoming trivial

/-! ## Paths of a merge -/

/-- A merge gives its rows in the order of the listing. -/
theorem Merges.rows_sublist (merges : Merges validate recursive existing incoming rows) :
    (rows.map Prod.fst).Sublist (entryRows incoming) := by
  induction merges with
  | nil => exact .slnil
  | missing _ _ inductionHypothesis =>
      exact (inductionHypothesis.trans (List.sublist_append_right _ _)).cons_cons _
  | pass _ _ _ _ inductionHypothesis =>
      exact (inductionHypothesis.trans (List.sublist_append_right _ _)).cons _
  | enter _ _ _ counterparts _ _ _ nestedHypothesis inductionHypothesis =>
      rw [entryRows, counterparts.right.rowsBelow_eq, List.map_append, List.map_map]
      refine .cons _ (.append ?_ inductionHypothesis)
      simpa [Function.comp_def] using nestedHypothesis.map _

/-- The names of a row are read off its dotted path. -/
theorem Merges.segments_dotted (merges : Merges validate recursive existing incoming rows)
    (everyLevel : EveryLevel DotFree incoming) {row : List String × Field} (isRow : row ∈ rows) :
    Path.segments (Path.dotted row.1) = row.1 := by
  have isListed := merges.rows_sublist.subset (List.mem_map_of_mem isRow)
  exact Path.segments_dotted (merges.names_ne_nil row isRow)
    (dotFree_of_mem_entryRows incoming everyLevel isListed)

theorem keys_entriesOfRows (rows : List (List String × Field)) :
    Mapping.keys (entriesOfRows none rows) = (rows.map Prod.fst).map Path.dotted := by
  simp [entriesOfRows, Mapping.keys, Path.join]

/-- The dotted paths of a merge are distinct. -/
theorem Merges.nodup_paths (merges : Merges validate recursive existing incoming rows)
    (everyLevel : EveryLevel DotFree incoming) :
    (Mapping.keys (entriesOfRows none rows)).Nodup := by
  rw [keys_entriesOfRows]
  refine .map_on ?_ (merges.rows_sublist.nodup (nodup_entryRows incoming everyLevel))
  intro names isNames others areOthers same
  obtain ⟨row, isRow, rfl⟩ := List.mem_map.mp isNames
  obtain ⟨other, isOther, rfl⟩ := List.mem_map.mp areOthers
  rw [← merges.segments_dotted everyLevel isRow, same, merges.segments_dotted everyLevel isOther]

/-- A merge of schemas gives the entries of its rows. -/
theorem Schema.merge_eq_ok_iff {existing incoming : Schema}
    (everyLevel : EveryLevel DotFree incoming) {merged : Schema × Event} :
    existing.merge incoming validate recursive = .ok merged ↔
      ∃ rows, Merges validate recursive existing incoming rows ∧
        (entriesOfRows none rows, mergeEvent "" (entriesOfRows none rows)) = merged := by
  rw [Schema.merge, map_eq_ok_iff]
  constructor
  · rintro ⟨added, isAdded, rfl⟩
    obtain ⟨rows, merges, rfl⟩ := entryAdditions_eq_ok_iff.mp isAdded
    refine ⟨rows, merges, ?_⟩
    rw [Mapping.ofList_of_nodup (merges.nodup_paths everyLevel)]
  · rintro ⟨rows, merges, rfl⟩
    refine ⟨_, merges.entryAdditions_eq_ok none, ?_⟩
    rw [Mapping.ofList_of_nodup (merges.nodup_paths everyLevel)]

end Runs

end SchemaTree
