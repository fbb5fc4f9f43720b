import SchemaTree.Field.Constructors
import SchemaTree.Flatten
import SchemaTree.Proofs.Field.Shown
import SchemaTree.View

/-!
Flattening and dotted look-up.  A flattened schema has the rows of names that a schema shows, joined
to paths.  As long as no name has a dot, the rows can be read off the paths, so that each path is
listed once, with the field that a look-up finds there.
-/

namespace SchemaTree

/-- Whether the first of a row of names is a key, and each later one is visible in the document
that it is looked up in. -/
def Schema.Shows (schema : Schema) : List String → Prop
  | [] => False
  | name :: rest => ∃ field, Mapping.lookup schema name = some field ∧ field.Shows rest

/-! ## Paths are joined rows -/

theorem branches_eq (showPrivate : Bool) (path : String) (fields : List (String × Field)) :
    branches showPrivate path fields = Mapping.mapValues (fun name field =>
      (Path.child path name, field) :: field.descendants showPrivate (Path.child path name))
      fields := by
  induction fields with
  | nil => rfl
  | cons entry rest inductionHypothesis =>
      simp [branches, inductionHypothesis, Mapping.mapValues]

/-- Below a document is what it shows, each field with all below it. -/
theorem Embedded.descendants_eq (nested : Embedded) (showPrivate : Bool) (path : String) :
    nested.descendants showPrivate path = (nested.visible showPrivate).flatMap fun entry =>
      (Path.child path entry.1, entry.2) ::
        entry.2.descendants showPrivate (Path.child path entry.1) := by
  obtain ⟨documentType, declared, displaced, fields, _ | ⟨selected, excluded, virtualFields⟩⟩ :=
    nested
  · simp only [descendants, branches_eq, Mapping.mapValues, List.filter_map, List.flatMap_map]
    rfl
  · simp only [descendants, branches_eq, Mapping.extend_mapValues]
    simp only [Mapping.mapValues, List.filter_map, List.flatMap_map]
    rfl

namespace Field

variable {field : Field} {nested : Embedded}

theorem Holds.descendants_eq (holds : field.Holds nested) (showPrivate : Bool) (path : String) :
    field.descendants showPrivate path = nested.descendants showPrivate path := by
  cases holds <;> rfl

theorem descendants_of_nested?_eq_none (isPlain : field.nested? = none) (showPrivate : Bool)
    (path : String) : field.descendants showPrivate path = [] := by
  obtain ⟨attributes, kind⟩ := field
  cases kind with
  | embedded nested => contradiction
  | list flavor element =>
      rcases element with - | ⟨inner, kind⟩
      · rfl
      · cases kind <;> first | rfl | contradiction
  | dict flavor element =>
      rcases element with - | ⟨inner, kind⟩
      · rfl
      · cases kind <;> first | rfl | contradiction
  | _ => rfl

/-- The rows that begin with an entry, joined below a path, or at the top level without one. -/
theorem joined_rowsFrom {entry : String × Field} {showPrivate : Bool}
    (isBelow : ∀ path, entry.2.descendants showPrivate path =
      (entry.2.shownBelow showPrivate).map fun row =>
        (Path.join (some path) (Path.dotted row.1), row.2))
    (path : Option String) :
    (rowsFrom showPrivate entry).map (fun row => (Path.join path (Path.dotted row.1), row.2)) =
      (Path.join path entry.1, entry.2) ::
        entry.2.descendants showPrivate (Path.join path entry.1) := by
  simp only [rowsFrom, List.map_cons, List.map_map, Path.dotted_singleton, isBelow]
  congr 1
  apply List.map_congr_left
  rintro ⟨names, found⟩ isRow
  obtain ⟨name, rest, rfl⟩ := exists_head_of_mem_shownBelow isRow
  simp [Path.join_dotted_cons]

/-- All fields below a field have the path of the field, continued by a row of names. -/
theorem descendants_eq_map (field : Field) (showPrivate : Bool) (path : String) :
    field.descendants showPrivate path =
      (field.shownBelow showPrivate).map fun row =>
        (Path.join (some path) (Path.dotted row.1), row.2) := by
  cases isNested : field.nested? with
  | none =>
      simp [descendants_of_nested?_eq_none isNested, shownBelow_of_nested?_eq_none isNested]
  | some nested =>
      have holds := nested?_eq_some_iff.mp isNested
      rw [holds.descendants_eq, nested.descendants_eq, holds.shownBelow_eq, List.map_flatMap]
      apply List.flatMap_congr
      intro entry isEntry
      have smaller := holds.sizeOf_visible_lt isEntry
      exact (joined_rowsFrom (entry.2.descendants_eq_map showPrivate) (some path)).symm
termination_by sizeOf field

end Field

namespace Schema

variable {schema : Schema} {showPrivate : Bool} {names : List String} {found : Field}

/-- The rows of names that a schema shows, depth first, each with the field that it leads to. -/
def shownRows (schema : Schema) (showPrivate : Bool) : List (List String × Field) :=
  (List.filter (fun entry => showPrivate || !isPrivate entry.1) schema).flatMap
    (rowsFrom showPrivate)

theorem paths_eq_map (schema : Schema) (showPrivate : Bool) :
    schema.paths showPrivate =
      (schema.shownRows showPrivate).map fun row => (Path.dotted row.1, row.2) := by
  rw [paths, shownRows, List.map_flatMap]
  apply List.flatMap_congr
  intro entry _
  exact (Field.joined_rowsFrom (entry.2.descendants_eq_map showPrivate) none).symm

/-! ## The rows of a schema -/

theorem cons_mem_shownRows_iff (dotFree : schema.NamesDotFree) {name : String}
    {rest : List String} :
    (name :: rest, found) ∈ schema.shownRows showPrivate ↔
      (showPrivate = true ∨ isPrivate name = false) ∧
        ∃ field, Mapping.lookup schema name = some field ∧
          field.ShowsAt showPrivate rest found := by
  rw [shownRows, cons_mem_flatMap_rowsFrom_iff fun member isEntry =>
    Field.mem_shownBelow_iff (dotFree.below (name, member) (List.mem_filter.mp isEntry).1)]
  simp only [List.mem_filter, Mapping.mem_iff_lookup dotFree.top.distinct, Bool.or_eq_true,
    Bool.not_eq_true']
  grind

/-- The rows of a schema are those of shown names that a look-up follows. -/
theorem mem_shownRows_iff (dotFree : schema.NamesDotFree) {path : String} :
    (Path.segments path, found) ∈ schema.shownRows showPrivate ↔
      schema.Shows (Path.segments path) ∧
        (∀ name ∈ Path.segments path, showPrivate = true ∨ isPrivate name = false) ∧
        schema.get? path = some found := by
  unfold get?
  cases Path.segments path with
  | nil =>
      refine iff_of_false (fun isRow => ?_) fun impossible => impossible.1
      obtain ⟨_, _, impossible⟩ := exists_head_of_mem_flatMap_rowsFrom isRow
      contradiction
  | cons name rest =>
      rw [cons_mem_shownRows_iff dotFree]
      constructor
      · rintro ⟨isPublic, field, isField, shows, isWanted, isFound⟩
        refine ⟨⟨field, isField, shows⟩, List.forall_mem_cons.mpr ⟨isPublic, isWanted⟩, ?_⟩
        simpa [isField] using isFound
      · rintro ⟨⟨field, isField, shows⟩, areWanted, isFound⟩
        obtain ⟨isPublic, isWanted⟩ := List.forall_mem_cons.mp areWanted
        exact ⟨isPublic, field, isField, shows, isWanted, by simpa [isField] using isFound⟩

/-- No name of a row has a dot. -/
theorem dotFree_of_mem_shownRows (dotFree : schema.NamesDotFree)
    (isRow : (names, found) ∈ schema.shownRows showPrivate) :
    ∀ name ∈ names, '.' ∉ name.toList := by
  obtain ⟨name, rest, rfl⟩ := exists_head_of_mem_flatMap_rowsFrom isRow
  obtain ⟨_, field, isField, showsAt⟩ := (cons_mem_shownRows_iff dotFree).mp isRow
  have isKey := Mapping.mem_keys_of_lookup isField
  have fieldDotFree := dotFree.below (name, field) (Mapping.mem_of_lookup isField)
  exact List.forall_mem_cons.mpr
    ⟨dotFree.top.dotFree name isKey, showsAt.shows.dotFree fieldDotFree⟩

theorem pairwise_precedes_shownRows (dotFree : schema.NamesDotFree) (showPrivate : Bool) :
    ((schema.shownRows showPrivate).map Prod.fst).Pairwise (Precedes schema) := by
  apply pairwise_precedes_rowsFrom dotFree.top.distinct List.filter_sublist
  intro entry isEntry nested holds
  exact holds.pairwise_precedes_shownBelow
    (dotFree.below entry (List.mem_filter.mp isEntry).1) showPrivate

/-! ## Rows and paths -/

theorem segments_of_mem_shownRows (dotFree : schema.NamesDotFree)
    (isRow : (names, found) ∈ schema.shownRows showPrivate) :
    Path.segments (Path.dotted names) = names := by
  obtain ⟨name, rest, isCons⟩ := exists_head_of_mem_flatMap_rowsFrom isRow
  have nonempty : names ≠ [] := by simp [isCons]
  exact Path.segments_dotted nonempty (dotFree_of_mem_shownRows dotFree isRow)

theorem mem_paths_iff (dotFree : schema.NamesDotFree) {path : String} :
    (path, found) ∈ schema.paths showPrivate ↔
      (Path.segments path, found) ∈ schema.shownRows showPrivate := by
  rw [paths_eq_map, List.mem_map]
  constructor
  · rintro ⟨⟨names, field⟩, isRow, same⟩
    cases same
    rwa [segments_of_mem_shownRows dotFree isRow]
  · intro isRow
    exact ⟨_, isRow, by simp⟩

theorem pairwise_precedes_paths (dotFree : schema.NamesDotFree) (showPrivate : Bool) :
    (Mapping.keys (schema.paths showPrivate)).Pairwise fun first second =>
      Precedes schema (Path.segments first) (Path.segments second) := by
  have inOrder := List.pairwise_map.mp (pairwise_precedes_shownRows dotFree showPrivate)
  rw [paths_eq_map, Mapping.keys, List.map_map, List.pairwise_map]
  apply inOrder.imp_of_mem
  intro first second isFirst isSecond precedes
  simpa [segments_of_mem_shownRows dotFree isFirst, segments_of_mem_shownRows dotFree isSecond]
    using precedes

/-- Under well-formed constraints, a flattened schema has the fields that match at the paths that
are shown.  It lists each path once, in depth-first order, with the field that a look-up finds. -/
theorem flatten_lists_shown_paths {constraints : Constraints} {isConstrained : Bool}
    (dotFree : schema.NamesDotFree) (isWellFormed : constraints.validate = .ok isConstrained)
    (showPrivate : Bool) :
    ∃ flat, schema.flatten constraints showPrivate = .ok flat ∧
      (∀ path field, (path, field) ∈ flat ↔
        schema.Shows (Path.segments path) ∧
          (∀ name ∈ Path.segments path, showPrivate = true ∨ isPrivate name = false) ∧
          schema.get? path = some field ∧ constraints.isMetBy field = true) ∧
      (Mapping.keys flat).Nodup ∧
      (Mapping.keys flat).Pairwise fun first second =>
        Precedes schema (Path.segments first) (Path.segments second) := by
  have inOrder := (pairwise_precedes_paths dotFree showPrivate).sublist
    ((List.filter_sublist (p := fun entry => constraints.isMetBy entry.2)).map Prod.fst)
  have distinct : (Mapping.keys ((schema.paths showPrivate).filter fun entry =>
      constraints.isMetBy entry.2)).Nodup := by
    -- No row comes before itself, so that paths in order are distinct.
    apply inOrder.imp
    rintro path _ precedes rfl
    exact precedes.asymm dotFree precedes
  refine ⟨_, by rw [flatten, isWellFormed]; rfl, ?_⟩
  rw [Mapping.ofList_of_nodup distinct]
  refine ⟨fun path field => ?_, distinct, inOrder⟩
  rw [List.mem_filter, mem_paths_iff dotFree, mem_shownRows_iff dotFree]
  simp only [and_assoc]

end Schema

/-- A list of documents under a view that hides one field, replaces one and adds one, beside a
private field. -/
def survey : Schema :=
  let origin := Field.embeddedWith "origin" ⟨"Point", none, []⟩ [.int "x"] []
  let scene := Field.embeddedWith "scene" ⟨"Scene", none, []⟩
    [.string "notes", .string "label", .int "_cache", origin] []
  let view := ((View.all.exclude ["notes"]).withField (.int "label")).withField (.int "total")
  [("scenes", .listOf "scenes" .embeddedDocuments
      (some (scene.modifyNested fun nested => (nested.useView view).1))),
    ("_id", .int "_id")]

theorem flatten_lists_shown_paths_survey :
    let constraints : Constraints := ⟨some [.int], none, none⟩
    survey.NamesDotFree ∧ constraints.validate = .ok true ∧
      ∃ flat, survey.flatten constraints false = .ok flat ∧
        (∀ path field, (path, field) ∈ flat ↔
          survey.Shows (Path.segments path) ∧
            (∀ name ∈ Path.segments path, false = true ∨ isPrivate name = false) ∧
            survey.get? path = some field ∧ constraints.isMetBy field = true) ∧
        (Mapping.keys flat).Nodup ∧
        (Mapping.keys flat).Pairwise fun first second =>
          Precedes survey (Path.segments first) (Path.segments second) := by
  have origin :
      (Field.embeddedWith "origin" ⟨"Point", none, []⟩ [.int "x"] []).copy.NamesDotFree := by
    refine Field.namesDotFree_iff.mpr ⟨nofun, ?_⟩
    rintro nested ⟨⟩
    refine ⟨⟨⟨by decide, by decide⟩, nofun⟩, ?_, nofun⟩
    exact List.forall_mem_singleton.mpr (.of_plain rfl rfl)
  have isDotFree : survey.NamesDotFree := by
    refine ⟨⟨by decide, by decide⟩, ?_⟩
    refine List.forall_mem_cons.mpr ⟨?_, List.forall_mem_singleton.mpr (.of_plain rfl rfl)⟩
    refine Field.namesDotFree_iff.mpr ⟨?_, nofun⟩
    rintro element ⟨⟩
    refine Field.namesDotFree_iff.mpr ⟨nofun, ?_⟩
    rintro nested ⟨⟩
    refine ⟨⟨⟨by decide, by decide⟩, ?_⟩, ?_, ?_⟩
    · rintro view ⟨⟩
      exact ⟨by decide, by decide⟩
    · refine List.forall_mem_cons.mpr ⟨.of_plain rfl rfl, ?_⟩
      refine List.forall_mem_cons.mpr ⟨.of_plain rfl rfl, ?_⟩
      exact List.forall_mem_cons.mpr ⟨.of_plain rfl rfl, List.forall_mem_singleton.mpr origin⟩
    · rintro view ⟨⟩
      refine List.forall_mem_cons.mpr ⟨.of_plain rfl rfl, ?_⟩
      exact List.forall_mem_singleton.mpr (.of_plain rfl rfl)
  exact ⟨isDotFree, rfl, Schema.flatten_lists_shown_paths isDotFree rfl false⟩

example : Except.map Mapping.keys (survey.flatten ⟨some [.int], none, none⟩ false) =
    .ok ["scenes.label", "scenes.origin.x", "scenes.total"] := by
  rfl

end SchemaTree
