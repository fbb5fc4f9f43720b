import SchemaTree.Field.Constructors
import SchemaTree.Proofs.Constraints
import SchemaTree.Proofs.Flatten
import SchemaTree.View

/-!
Queries of flat schemas.  A flat schema is a row of subtrees, each under the path of its root, so
that constraints can be applied to the subtrees, to their entries or to both; and as the subtree of
an entry is part of every subtree that has the entry, flattening twice is flattening once.  A
subtree is the listing of a document of its own, under longer paths.
-/

namespace SchemaTree

/-- Filtering rows by a test that all rows of an item pass, or none, filters the items. -/
theorem flatMap_filter_of_const {α β : Type} {items : List α} {rows : α → List β}
    {keep : α → Bool} {wanted : β → Bool}
    (same : ∀ item ∈ items, ∀ row ∈ rows item, wanted row = keep item) :
    (items.filter keep).flatMap rows = (items.flatMap rows).filter wanted := by
  induction items with
  | nil => rfl
  | cons item rest inductionHypothesis =>
      obtain ⟨here, same⟩ := List.forall_mem_cons.mp same
      rw [List.flatMap_cons, List.filter_append, ← inductionHypothesis same]
      cases kept : keep item with
      | true =>
          have all : (rows item).filter wanted = rows item :=
            List.filter_eq_self.mpr fun row isRow => (here row isRow).trans kept
          rw [List.filter_cons_of_pos kept, List.flatMap_cons, all]
      | false =>
          have none : (rows item).filter wanted = [] :=
            List.filter_eq_nil_iff.mpr fun row isRow => by simp [here row isRow, kept]
          rw [List.filter_cons_of_neg (by simp [kept]), none, List.nil_append]

/-- An entry and all fields below it, each with its path. -/
def subtree (showPrivate : Bool) (entry : String × Field) : List (String × Field) :=
  entry :: entry.2.descendants showPrivate entry.1

/-! ## Subtrees -/

section Subtrees

variable {showPrivate : Bool}

theorem Field.Holds.descendants_eq_flatMap {field : Field} {nested : Embedded}
    (holds : field.Holds nested) (path : String) :
    field.descendants showPrivate path = (nested.visible showPrivate).flatMap fun entry =>
      subtree showPrivate (Path.child path entry.1, entry.2) :=
  (holds.descendants_eq showPrivate path).trans (nested.descendants_eq showPrivate path)

/-- The subtree of an entry below a field is below the field. -/
theorem Field.subtree_subset_descendants (field : Field) {path : String} {entry : String × Field}
    (isBelow : entry ∈ field.descendants showPrivate path) :
    subtree showPrivate entry ⊆ field.descendants showPrivate path := by
  cases isNested : field.nested? with
  | none => simp [descendants_of_nested?_eq_none isNested] at isBelow
  | some nested =>
      have holds := nested?_eq_some_iff.mp isNested
      rw [holds.descendants_eq_flatMap] at isBelow ⊢
      obtain ⟨member, isVisible, isBelow⟩ := List.mem_flatMap.mp isBelow
      have isWithin : subtree showPrivate entry ⊆
          subtree showPrivate (Path.child path member.1, member.2) := by
        rcases List.mem_cons.mp isBelow with rfl | isBelow
        · exact List.Subset.refl _
        · have smaller := holds.sizeOf_visible_lt isVisible
          exact List.subset_cons_of_subset _ (member.2.subtree_subset_descendants isBelow)
      exact fun _ isPart => List.mem_flatMap.mpr ⟨member, isVisible, isWithin isPart⟩
termination_by sizeOf field

theorem subtrees_subset_subtree (root : String × Field) :
    (root.2.descendants showPrivate root.1).flatMap (subtree showPrivate) ⊆
      subtree showPrivate root := by
  intro entry isPart
  obtain ⟨middle, isBelow, isPart⟩ := List.mem_flatMap.mp isPart
  exact List.mem_cons_of_mem _ (root.2.subtree_subset_descendants isBelow isPart)

/-- Every path of a subtree is that of its root, or continues it. -/
theorem path_of_mem_subtree {root entry : String × Field}
    (isPart : entry ∈ subtree showPrivate root) :
    entry.1 = root.1 ∨ ∃ rest, entry.1 = Path.child root.1 rest := by
  rcases List.mem_cons.mp isPart with rfl | isBelow
  · exact .inl rfl
  · rw [root.2.descendants_eq_map] at isBelow
    obtain ⟨row, _, rfl⟩ := List.mem_map.mp isBelow
    exact .inr ⟨_, rfl⟩

theorem isPrivate_of_mem_subtree {root entry : String × Field}
    (isPart : entry ∈ subtree showPrivate root) : isPrivate entry.1 = isPrivate root.1 := by
  rcases path_of_mem_subtree isPart with same | ⟨rest, same⟩
  · rw [same]
  · rw [same, isPrivate_child]

theorem segments_of_mem_subtree {root entry : String × Field} (dotFree : '.' ∉ root.1.toList)
    (isPart : entry ∈ subtree showPrivate root) :
    (Path.segments entry.1).head? = some root.1 := by
  rcases path_of_mem_subtree isPart with same | ⟨rest, same⟩
  · have alone := Path.segments_dotted (List.cons_ne_nil root.1 []) (by simpa using dotFree)
    rw [same, ← Path.dotted_singleton root.1, alone, List.head?_cons, Path.dotted_singleton]
  · rw [same, Path.segments_child dotFree, List.head?_cons]

/-- Below a longer path stands the same, under longer paths. -/
theorem Field.descendants_child (field : Field) (path name : String) :
    field.descendants showPrivate (Path.child path name) =
      Mapping.mapKeys (Path.child path) (field.descendants showPrivate name) := by
  simp only [descendants_eq_map, Mapping.mapKeys, List.map_map]
  congr 1
  funext row
  simp [Path.join, Path.child, String.append_assoc]

theorem subtree_child (path : String) (entry : String × Field) :
    subtree showPrivate (Path.child path entry.1, entry.2) =
      Mapping.mapKeys (Path.child path) (subtree showPrivate entry) := by
  rw [subtree, entry.2.descendants_child]
  rfl

end Subtrees

/-! ## Some kennels -/

def dog : Field :=
  .embeddedWith "dog" ⟨"Dog", none, []⟩ [.int "age"] []

/-- Visits of dogs, under a view that hides the fee and adds a total. -/
def visits : Field :=
  let visit := Field.embeddedWith "visit" ⟨"Visit", none, []⟩ [dog, .int "fee"] []
  let view := (View.all.exclude ["fee"]).withField (.int "total")
  .listOf "visits" .embeddedDocuments
    (some (visit.modifyNested fun nested => (nested.useView view).1))

def kennels : Schema :=
  [("kennel", .embeddedWith "kennel" ⟨"Kennel", none, []⟩ [dog, .string "place"] []),
    ("visits", visits), ("_note", .string "_note")]

theorem namesDotFree_dog : dog.copy.NamesDotFree := by
  refine Field.namesDotFree_iff.mpr ⟨nofun, ?_⟩
  rintro nested ⟨⟩
  refine ⟨⟨⟨by decide, by decide⟩, nofun⟩, ?_, nofun⟩
  exact List.forall_mem_singleton.mpr (.of_plain rfl rfl)

theorem namesDotFree_visits : visits.NamesDotFree := by
  refine Field.namesDotFree_iff.mpr ⟨?_, nofun⟩
  rintro element ⟨⟩
  refine Field.namesDotFree_iff.mpr ⟨nofun, ?_⟩
  rintro nested ⟨⟩
  refine ⟨⟨⟨by decide, by decide⟩, ?_⟩, ?_, ?_⟩
  · rintro view ⟨⟩
    exact ⟨by decide, by decide⟩
  · exact List.forall_mem_cons.mpr
      ⟨namesDotFree_dog, List.forall_mem_singleton.mpr (.of_plain rfl rfl)⟩
  · rintro view ⟨⟩
    exact List.forall_mem_singleton.mpr (.of_plain rfl rfl)

theorem namesDotFree_kennels : kennels.NamesDotFree := by
  refine ⟨⟨by decide, by decide⟩, List.forall_mem_cons.mpr ⟨?_, ?_⟩⟩
  · refine Field.namesDotFree_iff.mpr ⟨nofun, ?_⟩
    rintro nested ⟨⟩
    refine ⟨⟨⟨by decide, by decide⟩, nofun⟩, ?_, nofun⟩
    exact List.forall_mem_cons.mpr
      ⟨namesDotFree_dog, List.forall_mem_singleton.mpr (.of_plain rfl rfl)⟩
  · exact List.forall_mem_cons.mpr
      ⟨namesDotFree_visits, List.forall_mem_singleton.mpr (.of_plain rfl rfl)⟩

namespace Schema

variable {schema : Schema} {showPrivate : Bool}

/-- The top-level field where a path starts. -/
def root? (schema : Schema) (path : String) : Option Field :=
  (Path.segments path).head?.bind (Mapping.lookup schema)

/-- The top-level fields that are shown, of those that a test lets through. -/
def pruned (schema : Schema) (showPrivate : Bool) (keep : Field → Bool) : Schema :=
  List.filter (fun entry => (showPrivate || !isPrivate entry.1) && keep entry.2) schema

/-! ## Flat schemas -/

theorem nodup_paths (dotFree : schema.NamesDotFree) (showPrivate : Bool) :
    (Mapping.keys (schema.paths showPrivate)).Nodup := by
  refine (pairwise_precedes_paths dotFree showPrivate).imp ?_
  rintro path _ precedes rfl
  exact precedes.asymm dotFree precedes

theorem nodup_filter_paths (dotFree : schema.NamesDotFree) (showPrivate : Bool)
    (keep : String × Field → Bool) :
    (Mapping.keys ((schema.paths showPrivate).filter keep)).Nodup :=
  (nodup_paths dotFree showPrivate).sublist (List.filter_sublist.map Prod.fst)

theorem paths_pruned (schema : Schema) (showPrivate : Bool) (keep : Field → Bool) :
    (schema.pruned showPrivate keep).paths showPrivate =
      (schema.pruned showPrivate keep).flatMap (subtree showPrivate) := by
  have unchanged : List.filter (fun entry => showPrivate || !isPrivate entry.1)
      (schema.pruned showPrivate keep) = schema.pruned showPrivate keep := by
    rw [List.filter_eq_self]
    intro entry isKept
    exact (Bool.and_eq_true_iff.mp (List.mem_filter.mp isKept).2).1
  rw [paths, unchanged]
  rfl

theorem paths_eq_flatMap_subtree (schema : Schema) (showPrivate : Bool) :
    schema.paths showPrivate =
      (schema.pruned showPrivate fun _ => true).flatMap (subtree showPrivate) := by
  simp only [pruned, Bool.and_true]
  rfl

/-- Flat paths start at fields that are shown, so that they are all shown again. -/
theorem filter_paths (schema : Schema) (showPrivate : Bool) :
    List.filter (fun entry => showPrivate || !isPrivate entry.1) (schema.paths showPrivate) =
      schema.paths showPrivate := by
  rw [List.filter_eq_self, paths_eq_flatMap_subtree]
  intro entry isPath
  obtain ⟨root, isRoot, isPart⟩ := List.mem_flatMap.mp isPath
  rw [isPrivate_of_mem_subtree isPart]
  simpa [pruned] using (List.mem_filter.mp isRoot).2

/-- Each subtree is listed again by its own entries. -/
theorem paths_paths (schema : Schema) (showPrivate : Bool) :
    Schema.paths (schema.paths showPrivate) showPrivate =
      (schema.pruned showPrivate fun _ => true).flatMap fun entry =>
        subtree showPrivate entry ++
          (entry.2.descendants showPrivate entry.1).flatMap (subtree showPrivate) := by
  rw [paths, filter_paths, paths_eq_flatMap_subtree, List.flatMap_assoc]
  rfl

theorem flatten_eq_ok {constraints : Constraints} {isConstrained : Bool}
    (isWellFormed : constraints.validate = .ok isConstrained)
    (distinct : (Mapping.keys (schema.paths showPrivate)).Nodup) :
    schema.flatten constraints showPrivate =
      .ok ((schema.paths showPrivate).filter fun entry => constraints.isMetBy entry.2) := by
  have distinctWanted := distinct.sublist
    ((List.filter_sublist (p := fun entry => constraints.isMetBy entry.2)).map Prod.fst)
  rw [flatten, isWellFormed, Except.map, Mapping.ofList_of_nodup distinctWanted]

/-- The flat schema has the fields that the schema has at all depths. -/
theorem flatten_none (dotFree : schema.NamesDotFree) (showPrivate : Bool) :
    schema.flatten .none showPrivate = .ok (schema.paths showPrivate) := by
  rw [flatten_eq_ok rfl (nodup_paths dotFree showPrivate)]
  exact congrArg Except.ok (List.filter_eq_self.mpr fun _ _ => rfl)

/-- Constraints pick the same fields of a flat schema as of the schema itself. -/
theorem flatten_paths (dotFree : schema.NamesDotFree) (constraints : Constraints)
    (showPrivate : Bool) :
    Schema.flatten (schema.paths showPrivate) constraints showPrivate =
      schema.flatten constraints showPrivate := by
  have listed : (schema.paths showPrivate).filter (fun entry => constraints.isMetBy entry.2) =
      (schema.pruned showPrivate fun _ => true).flatMap fun root =>
        (subtree showPrivate root).filter fun entry => constraints.isMetBy entry.2 := by
    rw [paths_eq_flatMap_subtree, List.filter_flatMap]
  have listedAgain : (Schema.paths (schema.paths showPrivate) showPrivate).filter
      (fun entry => constraints.isMetBy entry.2) =
      (schema.pruned showPrivate fun _ => true).flatMap fun root =>
        (subtree showPrivate root).filter (fun entry => constraints.isMetBy entry.2) ++
          ((root.2.descendants showPrivate root.1).flatMap (subtree showPrivate)).filter
            fun entry => constraints.isMetBy entry.2 := by
    simp only [paths_paths, List.filter_flatMap, List.filter_append]
  have distinct := nodup_filter_paths dotFree showPrivate fun entry => constraints.isMetBy entry.2
  have same := Mapping.extend_flatMap_append [] (listed ▸ distinct) fun root _ =>
    List.filter_subset (fun entry => constraints.isMetBy entry.2) (subtrees_subset_subtree root)
  rw [flatten, flatten, Mapping.ofList_of_nodup distinct, listed, listedAgain]
  exact congrArg (fun flat => Except.map (fun _ => flat) constraints.validate) same

/-! ## Filtering -/

theorem root?_of_mem_subtree (dotFree : schema.NamesDotFree) {root entry : String × Field}
    (isRoot : root ∈ schema) (isPart : entry ∈ subtree showPrivate root) :
    schema.root? entry.1 = some root.2 := by
  have isKey : root.1 ∈ Mapping.keys schema := List.mem_map_of_mem isRoot
  rw [root?, segments_of_mem_subtree (dotFree.top.dotFree root.1 isKey) isPart]
  exact Mapping.lookup_of_mem dotFree.top.distinct isRoot

/-- A pruned schema has the paths that start at the fields that are left. -/
theorem paths_pruned_eq_filter (dotFree : schema.NamesDotFree) (showPrivate : Bool)
    (keep : Field → Bool) :
    (schema.pruned showPrivate keep).paths showPrivate =
      (schema.paths showPrivate).filter fun entry => (schema.root? entry.1).any keep := by
  have parted : schema.pruned showPrivate keep =
      List.filter (fun entry => keep entry.2) (schema.pruned showPrivate fun _ => true) := by
    rw [pruned, pruned, List.filter_filter]
    exact List.filter_congr fun entry _ => by simp [Bool.and_comm]
  rw [paths_pruned, paths_eq_flatMap_subtree, parted]
  apply flatMap_filter_of_const
  intro root isRoot entry isPart
  rw [root?_of_mem_subtree dotFree (List.mem_filter.mp isRoot).1 isPart, Option.any_some]

theorem flatten_pruned (dotFree : schema.NamesDotFree) {constraints : Constraints}
    {isConstrained : Bool} (isWellFormed : constraints.validate = .ok isConstrained)
    (showPrivate : Bool) (keep : Field → Bool) :
    (schema.pruned showPrivate keep).flatten constraints showPrivate =
      .ok ((schema.paths showPrivate).filter fun entry =>
        (schema.root? entry.1).any keep && constraints.isMetBy entry.2) := by
  have isPart := paths_pruned_eq_filter dotFree showPrivate keep
  rw [flatten_eq_ok isWellFormed (isPart ▸ nodup_filter_paths dotFree showPrivate _), isPart,
    List.filter_filter]
  simp only [Bool.and_comm]

theorem filter_eq_flatten {query : Query} {isConstrained : Bool} (isFlat : query.flat = true)
    (isWellFormed : query.constraints.validate = .ok isConstrained) :
    schema.filter query =
      (schema.pruned query.includePrivate query.constraintsBefore.isMetBy).flatten
        query.constraintsAfter query.includePrivate := by
  rw [filter_of_validate isWellFormed]
  exact if_pos isFlat

/-- Under well-formed constraints, a flat query picks among the flat paths, which keep their order
and their fields: those of the fields that match, those that start at a top-level field that
matches, or those that do both.  Without a mode it picks the first. -/
theorem filter_picks_flat_paths {constraints : Constraints} {isConstrained : Bool}
    (dotFree : schema.NamesDotFree) (isWellFormed : constraints.validate = .ok isConstrained)
    (showPrivate : Bool) :
    ∃ flat, schema.flatten .none showPrivate = .ok flat ∧
      schema.filter ⟨constraints, showPrivate, true, some .after⟩ =
        .ok (List.filter (fun entry => constraints.isMetBy entry.2) flat) ∧
      schema.filter ⟨constraints, showPrivate, true, none⟩ =
        .ok (List.filter (fun entry => constraints.isMetBy entry.2) flat) ∧
      schema.filter ⟨constraints, showPrivate, true, some .before⟩ =
        .ok (List.filter (fun entry => (schema.root? entry.1).any constraints.isMetBy) flat) ∧
      schema.filter ⟨constraints, showPrivate, true, some .both⟩ =
        .ok (List.filter (fun entry =>
          (schema.root? entry.1).any constraints.isMetBy && constraints.isMetBy entry.2) flat) := by
  have after : (schema.pruned showPrivate fun _ => true).flatten constraints showPrivate =
      .ok ((schema.paths showPrivate).filter fun entry => constraints.isMetBy entry.2) := by
    have same : (schema.pruned showPrivate fun _ => true).paths showPrivate =
        schema.paths showPrivate := by
      rw [paths_pruned, paths_eq_flatMap_subtree]
    rw [flatten_eq_ok isWellFormed (same ▸ nodup_paths dotFree showPrivate), same]
  have noneIsWellFormed : Constraints.none.validate = .ok false := rfl
  have before := flatten_pruned dotFree noneIsWellFormed showPrivate constraints.isMetBy
  have both := flatten_pruned dotFree isWellFormed showPrivate constraints.isMetBy
  have unconstrained : ∀ entry : String × Field,
      ((schema.root? entry.1).any constraints.isMetBy && Constraints.none.isMetBy entry.2) =
        (schema.root? entry.1).any constraints.isMetBy := fun _ => Bool.and_true _
  simp only [unconstrained] at before
  refine ⟨_, flatten_none dotFree showPrivate, ?_, ?_, ?_, ?_⟩
  · exact (filter_eq_flatten rfl isWellFormed).trans after
  · exact (filter_eq_flatten rfl isWellFormed).trans after
  · exact (filter_eq_flatten rfl isWellFormed).trans before
  · exact (filter_eq_flatten rfl isWellFormed).trans both

theorem filter_picks_flat_paths_kennels :
    let constraints : Constraints := ⟨some [.embeddedDocument], none, none⟩
    kennels.NamesDotFree ∧ constraints.validate = .ok true ∧
      ∃ flat, kennels.flatten .none false = .ok flat ∧
        kennels.filter ⟨constraints, false, true, some .after⟩ =
          .ok (List.filter (fun entry => constraints.isMetBy entry.2) flat) ∧
        kennels.filter ⟨constraints, false, true, none⟩ =
          .ok (List.filter (fun entry => constraints.isMetBy entry.2) flat) ∧
        kennels.filter ⟨constraints, false, true, some .before⟩ =
          .ok (List.filter (fun entry => (kennels.root? entry.1).any constraints.isMetBy) flat) ∧
        kennels.filter ⟨constraints, false, true, some .both⟩ =
          .ok (List.filter (fun entry => (kennels.root? entry.1).any constraints.isMetBy &&
            constraints.isMetBy entry.2) flat) :=
  ⟨namesDotFree_kennels, rfl, filter_picks_flat_paths namesDotFree_kennels rfl false⟩

example :
    let query (mode : FlattenMode) : Query :=
      ⟨⟨some [.embeddedDocument], none, none⟩, false, true, some mode⟩
    Except.map Mapping.keys (kennels.filter (query .after)) =
        .ok ["kennel", "kennel.dog", "visits.dog"] ∧
      Except.map Mapping.keys (kennels.filter (query .before)) =
        .ok ["kennel", "kennel.dog", "kennel.dog.age", "kennel.place"] ∧
      Except.map Mapping.keys (kennels.filter (query .both)) = .ok ["kennel", "kennel.dog"] :=
  ⟨rfl, rfl, rfl⟩

/-! ## Flattening twice -/

/-- Flattening a flat schema changes nothing, and constraints pick the same fields of it as of the
schema itself. -/
theorem flatten_flat (dotFree : schema.NamesDotFree) (showPrivate : Bool) :
    ∃ flat, schema.flatten .none showPrivate = .ok flat ∧
      Schema.flatten flat .none showPrivate = .ok flat ∧
      ∀ constraints, Schema.flatten flat constraints showPrivate =
        schema.flatten constraints showPrivate := by
  have isFlat := flatten_none dotFree showPrivate
  exact ⟨_, isFlat, (flatten_paths dotFree .none showPrivate).trans isFlat,
    fun constraints => flatten_paths dotFree constraints showPrivate⟩

theorem flatten_flat_kennels :
    kennels.NamesDotFree ∧ ∃ flat, kennels.flatten .none true = .ok flat ∧
      Schema.flatten flat .none true = .ok flat ∧
      ∀ constraints, Schema.flatten flat constraints true = kennels.flatten constraints true :=
  ⟨namesDotFree_kennels, flatten_flat namesDotFree_kennels true⟩

/-! ## Documents on their own -/

section Documents

variable {field : Field} {nested : Embedded} {name : String}

/-- What a document shows is not pruned again. -/
theorem pruned_visible (nested : Embedded) (showPrivate : Bool) :
    Schema.pruned (nested.visible showPrivate) showPrivate (fun _ => true) =
      nested.visible showPrivate := by
  rw [pruned, List.filter_eq_self]
  intro entry isEntry
  rw [nested.visible_eq] at isEntry
  have isVisible := Embedded.isVisible_iff.mp (List.mem_filter.mp isEntry).2
  simpa using isVisible.2

theorem nodup_visible (distinct : (Mapping.keys nested.fields).Nodup) (showPrivate : Bool) :
    (Mapping.keys (nested.visible showPrivate)).Nodup := by
  have distinctOverlaid : (Mapping.keys nested.overlaid).Nodup := Mapping.nodup_extend distinct _
  exact distinctOverlaid.sublist ((nested.visible_sublist_overlaid showPrivate).map Prod.fst)

/-- Below a field stands what its document lists on its own, each path below the field's. -/
theorem descendants_eq_mapKeys (holds : field.Holds nested) (name : String) :
    field.descendants showPrivate name =
      Mapping.mapKeys (Path.child name)
        (Schema.paths (nested.visible showPrivate) showPrivate) := by
  rw [holds.descendants_eq_flatMap, paths_eq_flatMap_subtree, pruned_visible, Mapping.mapKeys,
    List.map_flatMap]
  exact List.flatMap_congr fun entry _ => subtree_child name entry

theorem schemaIn_eq_ok {constraints : Constraints} {isConstrained : Bool}
    (distinct : (Mapping.keys nested.fields).Nodup)
    (isWellFormed : constraints.validate = .ok isConstrained) :
    nested.schemaIn nested.view ⟨constraints, showPrivate, true, some .after⟩ =
      .ok (Mapping.ofList ((Schema.paths (nested.visible showPrivate) showPrivate).filter
        fun entry => constraints.isMetBy entry.2)) := by
  have unchanged : Mapping.ofList (nested.visibleIn nested.view showPrivate) =
      nested.visible showPrivate := Mapping.ofList_of_nodup (nodup_visible distinct showPrivate)
  have isFlat : (Query.mk constraints showPrivate true (some .after)).flat = true := rfl
  rw [Embedded.schemaIn, unchanged, filter_eq_flatten isFlat isWellFormed]
  show Schema.flatten (Schema.pruned (nested.visible showPrivate) showPrivate fun _ => true)
    constraints showPrivate = _
  rw [pruned_visible, flatten, isWellFormed, Except.map]

/-- A field is listed if it matches, and is followed by all that a query lists of its document
alone, with the name of the field before each path. -/
theorem flatten_continues_document {constraints : Constraints} {isConstrained : Bool}
    (isNested : field.nested? = some nested) (distinct : (Mapping.keys nested.fields).Nodup)
    (isShown : showPrivate = true ∨ isPrivate name = false)
    (isWellFormed : constraints.validate = .ok isConstrained) :
    ∃ inner, nested.schemaIn nested.view ⟨constraints, showPrivate, true, some .after⟩ = .ok inner ∧
      Schema.flatten [(name, field)] constraints showPrivate =
        .ok ((if constraints.isMetBy field then [(name, field)] else []) ++
          Mapping.mapKeys (Path.child name) inner) := by
  have listed : Schema.paths [(name, field)] showPrivate = (name, field) ::
      Mapping.mapKeys (Path.child name)
        (Schema.paths (nested.visible showPrivate) showPrivate) := by
    rw [← descendants_eq_mapKeys (Field.nested?_eq_some_iff.mp isNested), paths,
      List.filter_cons_of_pos (by simpa using isShown)]
    simp
  have injective := Path.child_injective name
  refine ⟨_, schemaIn_eq_ok distinct isWellFormed, ?_⟩
  rw [flatten, isWellFormed, Except.map, listed, List.filter_cons, Mapping.filter_mapKeys]
  -- No path continues to the name itself, so that the field keeps its place in front.
  cases constraints.isMetBy field with
  | true =>
      exact congrArg Except.ok
        (Mapping.ofList_cons_mapKeys injective (Path.child_ne name) field _)
  | false => exact congrArg Except.ok (Mapping.ofList_mapKeys injective _)

end Documents

theorem flatten_continues_document_visits :
    let constraints : Constraints := ⟨some [.int], none, none⟩
    ∃ visit, visits.nested? = some visit ∧ (Mapping.keys visit.fields).Nodup ∧
      (false = true ∨ isPrivate "visits" = false) ∧ constraints.validate = .ok true ∧
      ∃ inner, visit.schemaIn visit.view ⟨constraints, false, true, some .after⟩ = .ok inner ∧
        Schema.flatten [("visits", visits)] constraints false =
          .ok ((if constraints.isMetBy visits then [("visits", visits)] else []) ++
            Mapping.mapKeys (Path.child "visits") inner) := by
  have distinct : ∀ visit, visits.nested? = some visit → (Mapping.keys visit.fields).Nodup := by
    rintro visit ⟨⟩
    decide
  exact ⟨_, rfl, distinct _ rfl, .inr rfl, rfl,
    flatten_continues_document rfl (distinct _ rfl) (.inr rfl) rfl⟩

example : Except.map Mapping.keys (Schema.flatten [("visits", visits)] ⟨some [.int], none, none⟩
    false) = .ok ["visits.dog.age", "visits.total"] := by
  rfl

end Schema

end SchemaTree
