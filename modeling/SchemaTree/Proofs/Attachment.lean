import SchemaTree.Field.Constructors
import SchemaTree.Field.Virtual
import SchemaTree.Proofs.Field.Deep
import SchemaTree.Proofs.Path

/-!
Bindings across a whole schema.  A binding is kept in every field, and in every element of a
container, so that whatever moves a subtree has to write the paths below it anew.  Attaching a
schema binds each field at the path that a look-up finds it at, declaring, renaming and removing
keep it so at every depth, and what is removed is bound nowhere.
-/

namespace SchemaTree

/-- Whether a field is bound, and so is its element, and the element of that, as far as there
are any. -/
inductive Field.BoundAt (binding : Binding) : Field → Prop
  | intro {field : Field} (here : field.binding = some binding)
      (element : ∀ element, field.element = some element → Field.BoundAt binding element) :
      Field.BoundAt binding field

/-- Whether every effective field of a schema is bound at the path where it is found. -/
def Schema.BoundTo (dataset : Uuid) (schema : Schema) : Prop :=
  ∀ path field, schema.effective? path = some field → field.BoundAt ⟨dataset, path⟩

/-- Whether a field and all effective fields below it are bound at their paths, where it has the
given one. -/
def Field.BoundFrom (dataset : Uuid) (path : String) (field : Field) : Prop :=
  ∀ names found, (∀ name ∈ names, '.' ∉ name.toList) → field.effective? names = some found →
    found.BoundAt ⟨dataset, names.foldl Path.child path⟩

/-- Whether all fields of a mapping are bound from the paths that their names have there. -/
def EntriesBound (dataset : Uuid) (place : String → String) (fields : List (String × Field)) :
    Prop :=
  ∀ name field, '.' ∉ name.toList → Mapping.lookup fields name = some field →
    field.BoundFrom dataset (place name)

/-- Whether a field is bound nowhere, and has no stage that was compiled for a path. -/
structure Field.Unbound (field : Field) : Prop where
  isDetached : field.binding = none
  isUncompiled : field.stage = none

section Bound

variable {dataset : Uuid} {path : String} {field : Field} {nested : Embedded}

/-! ## Fields -/

theorem Field.boundAt_bind (field : Field) (dataset : Uuid) (path : String) :
    (field.bind dataset path).BoundAt ⟨dataset, path⟩ := by
  refine .intro (field.binding_rebind _) fun element isElement => ?_
  rw [bind, element_rebind, Option.map_eq_some_iff] at isElement
  obtain ⟨inner, isInner, rfl⟩ := isElement
  have smaller := sizeOf_element_lt isInner
  exact inner.boundAt_bind dataset path
termination_by sizeOf field

theorem Field.BoundAt.modifyNested {binding : Binding} (isBound : field.BoundAt binding)
    (change : Embedded → Embedded) : (field.modifyNested change).BoundAt binding := by
  cases isNested : field.nested? with
  | none => rwa [modifyNested_of_nested?_eq_none isNested]
  | some nested =>
      obtain ⟨here, element⟩ := isBound
      cases nested?_eq_some_iff.mp isNested with
      | document => exact .intro here nofun
      | list attributes inner flavor | dict attributes inner flavor =>
          obtain ⟨isInner, _⟩ := element _ rfl
          refine .intro here ?_
          rintro _ ⟨⟩
          exact .intro isInner nofun

/-- A field is bound from a path if it is bound there, and the fields of its document are bound
from the paths below. -/
theorem Field.boundFrom_iff :
    field.BoundFrom dataset path ↔ field.BoundAt ⟨dataset, path⟩ ∧
      ∀ nested, field.Holds nested → EntriesBound dataset (Path.child path) nested.fields := by
  constructor
  · intro isBound
    refine ⟨isBound [] field (by simp) rfl, ?_⟩
    intro nested holds name member nameDotFree isMember names found dotFree isFound
    exact isBound (name :: names) found (List.forall_mem_cons.mpr ⟨nameDotFree, dotFree⟩)
      (effective?_cons_eq_some_iff.mpr ⟨nested, member, holds, isMember, isFound⟩)
  · rintro ⟨here, below⟩ names found dotFree isFound
    cases names with
    | nil =>
        obtain rfl := Option.some.inj isFound
        exact here
    | cons name rest =>
        obtain ⟨nested, member, holds, isMember, isFound⟩ := effective?_cons_eq_some_iff.mp isFound
        obtain ⟨nameDotFree, dotFree⟩ := List.forall_mem_cons.mp dotFree
        exact below nested holds name member nameDotFree isMember rest found dotFree isFound

/-- Binding a field binds all effective fields below it. -/
theorem Field.boundFrom_bind (field : Field) (dataset : Uuid) (path : String) :
    (field.bind dataset path).BoundFrom dataset path := by
  refine boundFrom_iff.mpr ⟨field.boundAt_bind dataset path, ?_⟩
  intro after holds name found _ isFound
  rw [← nested?_eq_some_iff, bind, nested?_rebind, Option.map_eq_some_iff] at holds
  obtain ⟨nested, isNested, rfl⟩ := holds
  rw [Embedded.fields_rebind, lookup_rebindEntries, Option.map_eq_some_iff] at isFound
  obtain ⟨member, isMember, rfl⟩ := isFound
  have smaller :=
    (nested?_eq_some_iff.mp isNested).sizeOf_member_lt (Mapping.mem_of_lookup isMember)
  exact member.boundFrom_bind dataset (Path.child path name)
termination_by sizeOf field

theorem Field.BoundFrom.modifyNested (isBound : field.BoundFrom dataset path)
    {change : Embedded → Embedded}
    (keeps : ∀ nested, EntriesBound dataset (Path.child path) nested.fields →
      EntriesBound dataset (Path.child path) (change nested).fields) :
    (field.modifyNested change).BoundFrom dataset path := by
  obtain ⟨here, below⟩ := boundFrom_iff.mp isBound
  refine boundFrom_iff.mpr ⟨here.modifyNested change, ?_⟩
  intro after holds
  cases isNested : field.nested? with
  | none =>
      rw [modifyNested_of_nested?_eq_none isNested] at holds
      simp [nested?_eq_some_iff.mpr holds] at isNested
  | some nested =>
      have before := nested?_eq_some_iff.mp isNested
      rw [holds.unique (before.modifyNested change)]
      exact keeps nested (below nested before)

/-- A change at the end of a row of names keeps all bound if it keeps that field bound. -/
theorem Field.BoundFrom.updateBelow {change : Field → Field} {names : List String}
    (isBound : field.BoundFrom dataset path)
    (keeps : ∀ found : Field, found.BoundFrom dataset (names.foldl Path.child path) →
      (change found).BoundFrom dataset (names.foldl Path.child path)) :
    (field.updateBelow change names).BoundFrom dataset path := by
  -- The path grows by the names that lead to the change.
  induction names generalizing field path with
  | nil => exact keeps field isBound
  | cons name rest inductionHypothesis =>
      apply isBound.modifyNested
      intro nested areBound other found dotFree isFound
      rw [Mapping.lookup_adjust] at isFound
      by_cases same : name = other
      · rw [if_pos same, Option.map_eq_some_iff] at isFound
        obtain ⟨member, isMember, rfl⟩ := isFound
        subst same
        exact inductionHypothesis (areBound name member dotFree isMember) keeps
      · rw [if_neg same] at isFound
        exact areBound other found dotFree isFound

/-! ## Mappings -/

section Entries

variable {place : String → String} {fields : List (String × Field)}

theorem EntriesBound.erase (areBound : EntriesBound dataset place fields) (old : String) :
    EntriesBound dataset place (Mapping.erase fields old) := by
  intro name field dotFree isFound
  rw [Mapping.lookup_erase] at isFound
  by_cases same : old = name
  · simp [same] at isFound
  · exact areBound name field dotFree (by simpa [same] using isFound)

/-- A field that takes the place of an old name, or of none, is bound at its own. -/
theorem EntriesBound.install (areBound : EntriesBound dataset place fields) (old new : String)
    (field : Field) :
    EntriesBound dataset place
      (Mapping.erase fields old ++ [(new, field.place (some dataset) (place new))]) := by
  intro name found dotFree isFound
  rcases Embedded.lookup_erase_append isFound with ⟨_, isOld⟩ | ⟨rfl, rfl⟩
  · exact areBound name found dotFree isOld
  · exact field.boundFrom_bind dataset (place name)

end Entries

/-! ## Schemas -/

namespace Schema

variable {schema : Schema}

theorem boundTo_iff : schema.BoundTo dataset ↔ EntriesBound dataset id schema := by
  constructor
  · intro isBound name field nameDotFree isField names found dotFree isFound
    have areDotFree : ∀ part ∈ name :: names, '.' ∉ part.toList :=
      List.forall_mem_cons.mpr ⟨nameDotFree, dotFree⟩
    have isPath := Path.segments_dotted (List.cons_ne_nil name names) areDotFree
    rw [id, Path.foldl_child_eq_dotted]
    apply isBound
    simp [effective?, isPath, isField, isFound]
  · intro areBound path found isFound
    unfold effective? at isFound
    cases isPath : Path.segments path with
    | nil => simp [isPath] at isFound
    | cons name rest =>
        -- Fields under names with dots may be bound anywhere: no path leads to them.
        have areDotFree : ∀ part ∈ name :: rest, '.' ∉ part.toList := by
          rw [← isPath]
          exact fun _ => Path.dot_notMem_of_mem_segments
        obtain ⟨nameDotFree, dotFree⟩ := List.forall_mem_cons.mp areDotFree
        simp only [isPath, Option.bind_eq_some_iff] at isFound
        obtain ⟨field, isField, isFound⟩ := isFound
        have isBound := areBound name field nameDotFree isField rest found dotFree isFound
        rwa [id, Path.foldl_child_of_segments isPath] at isBound

/-- Attaching a schema binds every field at its path. -/
theorem boundTo_attach (schema : Schema) (dataset : Uuid) :
    (schema.attach dataset).BoundTo dataset := by
  rw [boundTo_iff]
  intro name found _ isFound
  rw [attach, Mapping.lookup_mapValues, Option.map_eq_some_iff] at isFound
  obtain ⟨field, _, rfl⟩ := isFound
  exact field.boundFrom_bind dataset name

end Schema

end Bound

/-! ## Changes -/

/-- A change of the fields of a document. -/
inductive Embedded.Change where
  | declare (field : Field)
  | rename (old : String) (field : Field)
  | remove (name : String)

/-- The edit of the document at a path that makes a change.  A field that it installs is attached
to a dataset, at its name below the path. -/
def Embedded.Change.edit (dataset : Uuid) (path : String) : Embedded.Change → Edit
  | declare field => .declare (some dataset) (Path.child path field.name) field
  | rename old field => .rename (some dataset) old (Path.child path field.name) field
  | remove name => .remove name

/-- A change of the fields of a schema, or of those of the document that a path leads to. -/
inductive Schema.Change where
  | declare (field : Field)
  | remove (name : String)
  | within (parent : String) (change : Embedded.Change)

namespace Schema

/-- The schema of a dataset after a change, which leaves all as it was if it fails. -/
def after (dataset : Uuid) (schema : Schema) : Change → Schema
  | .declare field => match schema.declare (some dataset) field with
    | .ok (after, _) => after
    | .error _ => schema
  | .remove name => match schema.remove name with
    | some (_, after) => after
    | none => schema
  | .within parent change =>
      schema.update parent (Field.modifyNested fun nested =>
        nested.apply (change.edit dataset parent))

/-- The schema of a dataset after a run of changes. -/
def run (dataset : Uuid) (schema : Schema) (changes : List Change) : Schema :=
  changes.foldl (after dataset) schema

/-- The field that a change returns, which is the one that it removes. -/
def removed? (schema : Schema) : Change → Option Field
  | .remove name => (schema.remove name).map Prod.fst
  | .within parent (.remove name) =>
      ((schema.effective? parent).bind Field.nested?).bind fun nested =>
        (nested.removeField name).map Prod.fst
  | _ => none

end Schema

section Changes

variable {dataset : Uuid} {path : String} {fields : List (String × Field)} {schema : Schema}

theorem EntriesBound.apply {nested : Embedded}
    (areBound : EntriesBound dataset (Path.child path) nested.fields) (change : Embedded.Change) :
    EntriesBound dataset (Path.child path) (nested.apply (change.edit dataset path)).fields := by
  cases change with
  | declare field =>
      rcases nested.apply_declare (some dataset) (Path.child path field.name) field with
        same | same <;> rw [Embedded.Change.edit, same]
      · exact areBound
      · exact areBound.install field.name field.name _
  | rename old field =>
      rcases nested.apply_rename (some dataset) old (Path.child path field.name) field with
        same | ⟨_, same⟩ <;> rw [Embedded.Change.edit, same]
      · exact areBound
      · exact areBound.install old field.name field
  | remove name =>
      rcases nested.apply_remove name with same | same <;> rw [Embedded.Change.edit, same]
      · exact areBound
      · exact areBound.erase name

/-- One change, successful or not, keeps every field bound at its path. -/
theorem Schema.BoundTo.after (isBound : schema.BoundTo dataset) (change : Change) :
    (schema.after dataset change).BoundTo dataset := by
  rw [boundTo_iff] at isBound ⊢
  cases change with
  | declare field =>
      simp only [Schema.after, declare]
      cases checkFieldName field.name with
      | error error => exact isBound
      | ok => exact isBound.install field.name field.name _
  | remove name =>
      simp only [Schema.after, remove]
      cases Mapping.lookup schema name with
      | none => exact isBound
      | some field => exact isBound.erase name
  | within parent change =>
      simp only [Schema.after, update]
      cases isPath : Path.segments parent with
      | nil => exact isBound
      | cons name rest =>
          intro other found dotFree isFound
          rw [Mapping.lookup_adjust] at isFound
          by_cases same : name = other
          · rw [if_pos same, Option.map_eq_some_iff] at isFound
            obtain ⟨field, isField, rfl⟩ := isFound
            subst same
            apply (isBound name field dotFree isField).updateBelow
            rw [id, Path.foldl_child_of_segments isPath]
            exact fun found isBound => isBound.modifyNested fun nested areBound =>
              areBound.apply change
          · rw [if_neg same] at isFound
            exact isBound other found dotFree isFound

theorem Schema.BoundTo.run (isBound : schema.BoundTo dataset) (changes : List Change) :
    (schema.run dataset changes).BoundTo dataset := by
  induction changes generalizing schema with
  | nil => exact isBound
  | cons change rest inductionHypothesis => exact inductionHypothesis (isBound.after change)

end Changes

/-! ## Removed fields -/

mutual

theorem Field.unbound_detach : (field : Field) → (field.rebind none).Everywhere Field.Unbound
  | ⟨attributes, kind⟩ =>
      ⟨⟨rfl, Field.stage_rebind ⟨attributes, kind⟩ none⟩, Kind.unbound_detach kind⟩
  termination_by structural field => field

theorem Kind.unbound_detach : (kind : Kind) → (kind.rebind none).Everywhere Field.Unbound
  | .list _ (some element) => Field.unbound_detach element
  | .dict _ (some element) => Field.unbound_detach element
  | .embedded nested => Embedded.unbound_detach nested
  | .list _ none | .dict _ none => trivial
  | .objectId | .uuid | .boolean | .int | .frameNumber | .float _ _ | .string | .date | .dateTime
  | .geo _ | .vector | .array => trivial
  termination_by structural kind => kind

theorem Embedded.unbound_detach :
    (nested : Embedded) → (nested.rebind none).Everywhere Field.Unbound
  | ⟨_, _, _, fields, _⟩ => unbound_detachEntries fields
  termination_by structural nested => nested

theorem unbound_detachEntries :
    (fields : List (String × Field)) → entriesEverywhere Field.Unbound (rebindEntries none fields)
  | [] => trivial
  | (_, field) :: rest => ⟨Field.unbound_detach field, unbound_detachEntries rest⟩
  termination_by structural fields => fields

end

namespace Schema

theorem unbound_of_removed? {schema : Schema} {change : Change} {removed : Field}
    (isRemoved : schema.removed? change = some removed) : removed.Everywhere Field.Unbound := by
  cases change with
  | declare field => contradiction
  | remove name =>
      simp only [removed?, remove, Option.map_eq_some_iff] at isRemoved
      obtain ⟨_, ⟨field, _, rfl⟩, rfl⟩ := isRemoved
      exact field.unbound_detach
  | within parent change =>
      cases change with
      | remove name =>
          simp only [removed?, Embedded.removeField, Option.bind_eq_some_iff,
            Option.map_eq_some_iff] at isRemoved
          obtain ⟨nested, _, _, ⟨field, _, rfl⟩, rfl⟩ := isRemoved
          exact field.unbound_detach
      | _ => contradiction

/-- Attaching a schema binds every field at its path, whatever changes follow keep it so, and what
they remove is bound nowhere. -/
theorem attached_run_is_bound (dataset : Uuid) :
    (∀ schema : Schema, (schema.attach dataset).BoundTo dataset) ∧
      (∀ schema : Schema, schema.BoundTo dataset → ∀ changes,
        (schema.run dataset changes).BoundTo dataset) ∧
      ∀ (schema : Schema) change removed, schema.removed? change = some removed →
        removed.Everywhere Field.Unbound :=
  ⟨fun schema => schema.boundTo_attach dataset, fun _ isBound => isBound.run,
    fun _ _ _ => unbound_of_removed?⟩

end Schema

/-- The dataset of a fleet. -/
def fleetDataset : Uuid := ⟨List.replicate 16 7, rfl⟩

/-- A list of trucks with their wheels, and lists of remarks. -/
def fleet : Schema :=
  let wheel := Field.embeddedWith "wheel" ⟨"Wheel", none, []⟩ [.string "maker"] []
  let truck := Field.embeddedWith "truck" ⟨"Truck", none, []⟩ [wheel] []
  [("trucks", .listOf "trucks" .embeddedDocuments (some truck)),
    ("remarks", .dict "remarks" (some (.list "texts" (some (.string "text")))))]

/-- Wheels get a size, become tires, and the remarks are replaced. -/
def fleetChanges : List Schema.Change :=
  let tire := Field.embeddedWith "tire" ⟨"Wheel", none, []⟩ [.string "maker"] []
  [.within "trucks.wheel" (.declare (.int "size")), .within "trucks" (.rename "wheel" tire),
    .declare (.string "remarks")]

theorem attached_run_is_bound_fleet :
    let after := (fleet.attach fleetDataset).run fleetDataset fleetChanges
    (fleet.attach fleetDataset).BoundTo fleetDataset ∧ after.BoundTo fleetDataset ∧
      ∃ removed, after.removed? (.within "trucks" (.remove "tire")) = some removed ∧
        removed.Everywhere Field.Unbound := by
  obtain ⟨attached, stays, isUnbound⟩ := Schema.attached_run_is_bound fleetDataset
  refine ⟨attached fleet, stays _ (attached fleet) fleetChanges, ?_⟩
  obtain ⟨removed, isRemoved⟩ := Option.isSome_iff_exists.mp (show
    (((fleet.attach fleetDataset).run fleetDataset fleetChanges).removed?
      (.within "trucks" (.remove "tire"))).isSome = true by decide +kernel)
  exact ⟨removed, isRemoved, isUnbound _ _ _ isRemoved⟩

example :
    let after := (fleet.attach fleetDataset).run fleetDataset fleetChanges
    (after.effective? "trucks.tire.maker").bind Field.path = some "trucks.tire.maker" := by
  decide +kernel

end SchemaTree
