import SchemaTree.Field.Constructors
import SchemaTree.Proofs.Field.Deep
import SchemaTree.Proofs.Merge.Absorption

/-!
Merging converges.  The fields that a merge adds can be declared one after the other, each at its
path; the schema that results keeps all paths of the original, and another merge adds nothing.
-/

namespace SchemaTree

namespace Schema

/-- Declares a field at a dotted path: on the schema itself if the path has one name, and otherwise
on the embedded document at the path without its last name. -/
def declareAt (schema : Schema) (dataset : Option Uuid) (path : String) (field : Field) :
    Except Error Schema :=
  match (Path.segments path).dropLast with
  | [] => (schema.declare dataset field).map Prod.fst
  | names =>
      let parent := Path.dotted names
      match (schema.effective? parent).bind Field.nested? with
      | none => .error (.missingField parent)
      | some nested => (nested.declareField dataset path field).map fun declared =>
          schema.update parent (Field.modifyNested fun _ => declared.1)

/-- Declares fields at dotted paths, in order. -/
def declareEach (dataset : Option Uuid) : Schema → List (String × Field) → Except Error Schema
  | schema, [] =>
      .ok schema
  | schema, (path, field) :: rest =>
      (schema.declareAt dataset path field).bind fun grown => declareEach dataset grown rest

end Schema

namespace Declaration

/-- The declaration as seen from above the field of a name. -/
def below (name : String) (declaration : Declaration) : Declaration :=
  { declaration with target := name :: declaration.target }

/-- The fields after a declaration that succeeds. -/
def install (declaration : Declaration) (fields : List (String × Field)) :
    List (String × Field) :=
  match declaration.target with
  | [] =>
      let field := declaration.field
      let installed := Embedded.inheritFlags field (Mapping.lookup fields field.name)
      Mapping.erase fields field.name ++
        [(field.name, installed.place declaration.dataset declaration.path)]
  | name :: rest =>
      Mapping.adjust fields name (Field.modifyNested (Embedded.editAt declaration.edit rest))

/-- Whether a declaration can be made: its field has a valid name, and its target is there. -/
structure Applies (declaration : Declaration) (fields : List (String × Field)) : Prop where
  isName : isFieldName declaration.field.name = true
  target : ∀ name rest, declaration.target = name :: rest → ∃ first found nested,
    Mapping.lookup fields name = some first ∧ first.effective? rest = some found ∧
      Field.Holds found nested

theorem fields_editAt {declaration : Declaration}
    (isName : isFieldName declaration.field.name = true) (nested : Embedded) :
    (nested.editAt declaration.edit declaration.target).fields =
      declaration.install nested.fields := by
  obtain ⟨target, dataset, path, field⟩ := declaration
  cases target with
  | nil => exact (Embedded.declareField_of_isFieldName isName nested).2
  | cons name rest => rfl

/-- A declaration under a fresh name changes what is found under that name, and nothing else. -/
theorem lookup_install_of_fresh {fields : List (String × Field)} {field : Field}
    (isFresh : Mapping.lookup fields field.name = none) (dataset : Option Uuid) (path : String)
    (name : String) :
    Mapping.lookup (install ⟨[], dataset, path, field⟩ fields) name =
      if field.name = name then some (field.place dataset path) else Mapping.lookup fields name := by
  have isInstalled : install ⟨[], dataset, path, field⟩ fields =
      Mapping.erase fields field.name ++ [(field.name, field.place dataset path)] := by
    simp [install, isFresh, Embedded.inheritFlags]
  rw [isInstalled, Mapping.lookup_append, Mapping.lookup_erase]
  by_cases same : field.name = name <;> simp [same, Mapping.lookup]

theorem Applies.below {declaration : Declaration} {outer : Embedded}
    (applies : declaration.Applies outer.fields) {fields : List (String × Field)} {name : String}
    {found : Field} (isFound : Mapping.lookup fields name = some found)
    (holds : found.Holds outer) : (declaration.below name).Applies fields := by
  refine ⟨applies.isName, ?_⟩
  rintro _ _ ⟨rfl, rfl⟩
  cases target : declaration.target with
  | nil => exact ⟨found, found, outer, isFound, rfl, holds⟩
  | cons second rest =>
      obtain ⟨first, last, nested, isFirst, isLast, isHeld⟩ := applies.target second rest target
      exact ⟨found, last, nested, isFound,
        Field.effective?_cons_eq_some_iff.mpr ⟨outer, first, holds, isFirst, isLast⟩, isHeld⟩

end Declaration

/-- Declarations that can be made one after the other, and what they make of fields. -/
inductive Installs : List Declaration → List (String × Field) → List (String × Field) → Prop
  | nil (fields : List (String × Field)) : Installs [] fields fields
  | cons {declaration : Declaration} {rest : List Declaration}
      {fields grown : List (String × Field)} (applies : declaration.Applies fields)
      (others : Installs rest (declaration.install fields) grown) :
      Installs (declaration :: rest) fields grown

/-- Declarations on a document are declarations on the fields that it is below. -/
theorem Installs.inside {declarations : List Declaration}
    {grownBelow current : List (String × Field)} {outer : Embedded} {name : String} {found : Field}
    (installs : Installs declarations outer.fields grownBelow)
    (isFound : Mapping.lookup current name = some found) (holds : found.Holds outer) :
    ∃ changed : Embedded, changed.fields = grownBelow ∧
      changed.documentType = outer.documentType ∧ ∀ more grown,
        Installs more (Mapping.adjust current name (Field.modifyNested fun _ => changed)) grown →
          Installs (declarations.map (Declaration.below name) ++ more) current grown := by
  generalize start : outer.fields = fields at installs
  induction installs generalizing current found outer with
  | nil =>
      refine ⟨outer, start, rfl, fun more grown others => ?_⟩
      rw [Mapping.adjust_eq_self] at others
      · exact others
      · intro value isValue
        obtain rfl := Option.some.inj (isFound.symm.trans isValue)
        exact holds.modifyNested_self
  | @cons declaration rest fields grownBelow applies _ inductionHypothesis =>
      subst start
      let change := Embedded.editAt declaration.edit declaration.target
      have isChanged : Mapping.lookup (Mapping.adjust current name (Field.modifyNested change))
          name = some (found.modifyNested change) := by
        rw [Mapping.lookup_adjust, if_pos rfl, isFound, Option.map_some]
      obtain ⟨changed, sameFields, sameType, continued⟩ := inductionHypothesis isChanged
        (holds.modifyNested change) (Declaration.fields_editAt applies.isName outer)
      refine ⟨changed, sameFields, sameType.trans (Embedded.documentType_editAt _ _ _), ?_⟩
      intro more grown others
      refine .cons (applies.below isFound holds) (continued more grown ?_)
      rw [Mapping.adjust_adjust]
      simpa only [Field.modifyNested_modifyNested] using others

/-! ## Kept paths -/

/-- Whether every path that leads to a field still does, and to one of the same type. -/
def PathsKept (before after : List (String × Field)) : Prop :=
  ∀ name rest found, (Mapping.lookup before name).bind (Field.effective? rest) = some found →
    ∃ other, (Mapping.lookup after name).bind (Field.effective? rest) = some other ∧
      other.type = found.type

namespace PathsKept

variable {before between after : List (String × Field)} {name : String}

theorem refl (fields : List (String × Field)) : PathsKept fields fields :=
  fun _ _ found isFound => ⟨found, isFound, rfl⟩

theorem trans (first : PathsKept before between) (second : PathsKept between after) :
    PathsKept before after := by
  intro name rest found isFound
  obtain ⟨other, isOther, sameType⟩ := first name rest found isFound
  obtain ⟨last, isLast, alsoSame⟩ := second name rest other isOther
  exact ⟨last, isLast, alsoSame.trans sameType⟩

/-- A new name does not get in the way of any path. -/
theorem of_fresh (isMissing : Mapping.lookup before name = none)
    (others : ∀ other ≠ name, Mapping.lookup after other = Mapping.lookup before other) :
    PathsKept before after := by
  intro first rest found isFound
  by_cases same : first = name
  · rw [same, isMissing] at isFound
    contradiction
  · exact ⟨found, others first same ▸ isFound, rfl⟩

/-- A document that keeps its paths keeps those of the fields that it is below. -/
theorem adjust {found : Field} {outer changed : Embedded}
    (kept : PathsKept outer.fields changed.fields)
    (isFound : Mapping.lookup before name = some found) (holds : found.Holds outer) :
    PathsKept before (Mapping.adjust before name (Field.modifyNested fun _ => changed)) := by
  intro first rest last isLast
  rw [Mapping.lookup_adjust]
  by_cases same : name = first
  · subst same
    rw [isFound] at isLast
    rw [if_pos rfl, isFound]
    cases rest with
    | nil =>
        cases isLast
        exact ⟨_, rfl, Field.type_modifyNested _ _⟩
    | cons second rest =>
        obtain ⟨nested, inner, isHeld, isInner, isLast⟩ :=
          Field.effective?_cons_eq_some_iff.mp isLast
        obtain rfl := holds.unique isHeld
        obtain ⟨other, isOther, sameType⟩ :=
          kept second rest last (Option.bind_eq_some_iff.mpr ⟨inner, isInner, isLast⟩)
        obtain ⟨innerOther, isInnerOther, isOther⟩ := Option.bind_eq_some_iff.mp isOther
        exact ⟨other, Field.effective?_cons_eq_some_iff.mpr
          ⟨changed, innerOther, holds.modifyNested _, isInnerOther, isOther⟩, sameType⟩
  · rw [if_neg same]
    exact ⟨last, isLast, rfl⟩

end PathsKept

/-! ## Convergence -/

/-- The declarations of the rows of a merge at a path. -/
def declarationsOf (dataset : Option Uuid) (path : Option String)
    (rows : List (List String × Field)) : List Declaration :=
  rows.map fun row =>
    ⟨row.1.dropLast, dataset, Path.join path (Path.dotted row.1), row.2.copy⟩

theorem declarationsOf_below {dataset : Option Uuid} {path : Option String} {name : String}
    {rows : List (List String × Field)} (nonempty : ∀ row ∈ rows, row.1 ≠ []) :
    declarationsOf dataset path (rows.map fun row => (name :: row.1, row.2)) =
      (declarationsOf dataset (some (Path.join path name)) rows).map (Declaration.below name) := by
  rw [declarationsOf, declarationsOf, List.map_map, List.map_map]
  refine List.map_congr_left fun row isRow => ?_
  simp only [Function.comp, Declaration.below, Path.join_dotted_cons path name (nonempty row isRow),
    List.dropLast_cons_of_ne_nil (nonempty row isRow)]

theorem OwnNames.fresh {entry : String × Field} {rest : List (String × Field)}
    (ownNames : OwnNames (entry :: rest)) : entry.1 ∉ Mapping.keys rest :=
  (List.nodup_cons.mp ownNames.distinct).1

theorem OwnNames.tail {entry : String × Field} {rest : List (String × Field)}
    (ownNames : OwnNames (entry :: rest)) : OwnNames rest :=
  ⟨ownNames.distinct.of_cons, fun other isEntry => ownNames.named other (.tail _ isEntry)⟩

/-- The fields after the declarations of a merge: they absorb all that was merged, and all that was
there before is still there. -/
structure Converged (validate recursive : Bool) (incoming before after : List (String × Field)) :
    Prop where
  absorbs : ∀ entry ∈ incoming, ∃ found, Mapping.lookup after entry.1 = some found ∧
    Absorbs validate recursive found entry.2
  untouched : ∀ name ∉ Mapping.keys incoming,
    Mapping.lookup after name = Mapping.lookup before name
  kept : PathsKept before after

section Converges

variable {validate recursive : Bool} {existing incoming rest : List (String × Field)}
variable {before between after : List (String × Field)} {name : String} {field right : Field}

/-- A step under one name, which is incoming no more, and what makes the others converge. -/
theorem Converged.cons (converged : Converged validate recursive rest between after)
    (fresh : name ∉ Mapping.keys rest) (isHere : Mapping.lookup between name = some field)
    (absorbs : Absorbs validate recursive field right)
    (others : ∀ other ≠ name, Mapping.lookup between other = Mapping.lookup before other)
    (kept : PathsKept before between) :
    Converged validate recursive ((name, right) :: rest) before after where
  absorbs := by
    refine List.forall_mem_cons.mpr ⟨⟨field, ?_, absorbs⟩, converged.absorbs⟩
    exact (converged.untouched name fresh).trans isHere
  untouched := by
    intro other isOutside
    obtain ⟨different, notLater⟩ := not_or.mp (mt List.mem_cons.mpr isOutside)
    exact (converged.untouched other notLater).trans (others other different)
  kept := kept.trans converged.kept

theorem agrees_tail (fresh : name ∉ Mapping.keys rest)
    (others : ∀ other ≠ name, Mapping.lookup between other = Mapping.lookup before other)
    (agrees : ∀ other ∈ Mapping.keys ((name, right) :: rest),
      Mapping.lookup before other = Mapping.lookup existing other) :
    ∀ other ∈ Mapping.keys rest, Mapping.lookup between other = Mapping.lookup existing other := by
  intro other isKey
  have different : other ≠ name := by
    rintro rfl
    exact fresh isKey
  exact (others other different).trans (agrees other (.tail _ isKey))

/-- What a merge adds can be declared on any fields that agree with the existing ones on the names
of the incoming ones, and makes the merge converge. -/
theorem Merges.converges {rows : List (List String × Field)}
    (merges : Merges validate recursive existing incoming rows)
    (everyLevel : EveryLevel OwnNames incoming) (dataset : Option Uuid) (path : Option String)
    (current : List (String × Field)) (agrees : ∀ name ∈ Mapping.keys incoming,
      Mapping.lookup current name = Mapping.lookup existing name) :
    ∃ grown, Installs (declarationsOf dataset path rows) current grown ∧
      Converged validate recursive incoming current grown := by
  induction merges generalizing path current with
  | nil => exact ⟨current, .nil current, by simp, fun _ _ => rfl, .refl current⟩
  | @missing existing rest name right rows isMissing _ inductionHypothesis =>
      have fresh := everyLevel.1.fresh
      obtain ⟨named, isName⟩ := everyLevel.1.named _ (.head _)
      have isFresh : Mapping.lookup current name = none :=
        (agrees name (.head _)).trans isMissing
      have sameName : right.copy.name = name := (right.name_rebind none).trans named
      let declaration : Declaration := ⟨[], dataset, Path.join path name, right.copy⟩
      let installed := right.copy.place dataset (Path.join path name)
      have lookup_install (other : String) : Mapping.lookup (declaration.install current) other =
          if name = other then some installed else Mapping.lookup current other := by
        rw [Declaration.lookup_install_of_fresh (sameName.symm ▸ isFresh), sameName]
      have isHere : Mapping.lookup (declaration.install current) name = some installed := by
        rw [lookup_install, if_pos rfl]
      have others : ∀ other ≠ name,
          Mapping.lookup (declaration.install current) other = Mapping.lookup current other := by
        intro other different
        rw [lookup_install, if_neg (Ne.symm different)]
      have applies : declaration.Applies current :=
        ⟨sameName.symm ▸ isName, by simp [declaration]⟩
      have absorbs : Absorbs validate recursive installed right := by
        have isCopy : installed = right.rebind (dataset.map fun dataset => ⟨dataset, _⟩) :=
          right.rebind_rebind _ _
        rw [isCopy]
        exact absorbs_rebind right _ fun nested holds => everyLevel.below (.head _) holds
      obtain ⟨grown, installs, converged⟩ := inductionHypothesis
        (everyLevel.tail everyLevel.1.tail) path _ (agrees_tail fresh others agrees)
      refine ⟨grown, ?_, converged.cons fresh isHere absorbs others (.of_fresh isFresh others)⟩
      have first : declarationsOf dataset path (([name], right) :: rows) =
          declaration :: declarationsOf dataset path rows := by
        simp [declarationsOf, declaration]
      rw [first]
      exact .cons applies installs
  | @pass existing rest name left right rows isFound fits isApart _ inductionHypothesis =>
      have fresh := everyLevel.1.fresh
      obtain ⟨grown, installs, converged⟩ := inductionHypothesis
        (everyLevel.tail everyLevel.1.tail) path current
        fun other isKey => agrees other (.tail _ isKey)
      refine ⟨grown, installs, converged.cons fresh ?_ (.pass fits isApart) (fun _ _ => rfl)
        (.refl current)⟩
      exact (agrees name (.head _)).trans isFound
  | @enter existing rest name left right outer inner below rows isRecursive isFound fits
      counterparts derives nested _ nestedHypothesis inductionHypothesis =>
      have fresh := everyLevel.1.fresh
      have isCurrent : Mapping.lookup current name = some left :=
        (agrees name (.head _)).trans isFound
      obtain ⟨grownBelow, installsBelow, convergedBelow⟩ := nestedHypothesis
        (everyLevel.below (.head _) counterparts.right) (some (Path.join path name)) outer.fields
        fun _ _ => rfl
      obtain ⟨changed, rfl, sameType, continued⟩ :=
        installsBelow.inside isCurrent counterparts.left
      let entered := Mapping.adjust current name (Field.modifyNested fun _ => changed)
      have isHere : Mapping.lookup entered name = some (left.modifyNested fun _ => changed) := by
        rw [Mapping.lookup_adjust, if_pos rfl, isCurrent, Option.map_some]
      have others : ∀ other ≠ name,
          Mapping.lookup entered other = Mapping.lookup current other := by
        intro other different
        rw [Mapping.lookup_adjust, if_neg (Ne.symm different)]
      have absorbs : Absorbs validate recursive (left.modifyNested fun _ => changed) right := by
        refine .enter isRecursive ?_ (counterparts.modifyNested changed) (sameType ▸ derives)
          (.of_absorbs convergedBelow.absorbs)
        exact fun isChecked => (fits isChecked).modifyNested counterparts.left sameType
      obtain ⟨grown, installs, converged⟩ := inductionHypothesis
        (everyLevel.tail everyLevel.1.tail) path entered (agrees_tail fresh others agrees)
      refine ⟨grown, ?_, converged.cons fresh isHere absorbs others
        (convergedBelow.kept.adjust isCurrent counterparts.left)⟩
      have split : declarationsOf dataset path
          (below.map (fun row => (name :: row.1, row.2)) ++ rows) =
            (declarationsOf dataset (some (Path.join path name)) below).map
              (Declaration.below name) ++ declarationsOf dataset path rows := by
        rw [← declarationsOf_below nested.names_ne_nil]
        exact List.map_append
      rw [split]
      exact continued _ _ installs

end Converges

/-! ## Dotted paths -/

/-- A declaration at the dotted path of its names succeeds if it can be made. -/
theorem Schema.declareAt_of_applies {schema : Schema} {declaration : Declaration}
    (isPath : Path.segments declaration.path = declaration.target ++ [declaration.field.name])
    (applies : declaration.Applies schema) :
    schema.declareAt declaration.dataset declaration.path declaration.field =
      .ok (declaration.install schema) := by
  obtain ⟨target, dataset, path, field⟩ := declaration
  dsimp only at isPath
  have isTarget : (Path.segments path).dropLast = target := by
    rw [isPath, List.dropLast_concat]
  rw [declareAt, isTarget]
  cases target with
  | nil =>
      have samePath : path = field.name := by
        rw [← Path.dotted_segments path, isPath, List.nil_append, Path.dotted_singleton]
      simp [declare, checkFieldName, applies.isName, Declaration.install, Except.map, samePath]
  | cons name rest =>
      obtain ⟨first, found, nested, isFirst, isFound, holds⟩ := applies.target name rest rfl
      have isParent : Path.segments (Path.dotted (name :: rest)) = name :: rest := by
        refine Path.segments_dotted (List.cons_ne_nil name rest) fun other isName => ?_
        exact Path.dot_notMem_of_mem_segments (isPath ▸ List.mem_append_left _ isName)
      have isThere : (schema.effective? (Path.dotted (name :: rest))).bind Field.nested? =
          some nested := by
        simp only [effective?, isParent, isFirst, Option.bind_some, isFound,
          Field.nested?_eq_some_iff.mpr holds]
      obtain ⟨event, isDeclared⟩ : ∃ event, nested.declareField dataset path field =
          .ok (nested.apply (.declare dataset path field), event) :=
        (Embedded.declareField_of_isFieldName applies.isName nested).1
      have reached : ∀ value, Mapping.lookup schema name = some value →
          value.updateBelow
              (Field.modifyNested fun _ => nested.apply (.declare dataset path field)) rest =
            value.modifyNested (Embedded.editAt (.declare dataset path field) rest) := by
        intro value isValue
        obtain rfl := Option.some.inj (isFirst.symm.trans isValue)
        rw [← Field.editBelow_eq_modifyNested]
        exact Field.updateBelow_congr isFound (holds.modifyNested_congr rfl)
      simp only [isThere, isDeclared, Except.map, update, isParent, Mapping.adjust_congr reached]
      rfl

theorem Merges.own_names {validate recursive : Bool} {existing incoming : List (String × Field)}
    {rows : List (List String × Field)} (merges : Merges validate recursive existing incoming rows)
    (everyLevel : EveryLevel OwnNames incoming) :
    ∀ row ∈ rows, row.1 = row.1.dropLast ++ [row.2.name] := by
  induction merges with
  | nil => nofun
  | missing _ _ inductionHypothesis =>
      refine List.forall_mem_cons.mpr ⟨?_, inductionHypothesis (everyLevel.tail everyLevel.1.tail)⟩
      simp [(everyLevel.1.named _ (.head _)).1]
  | pass _ _ _ _ inductionHypothesis =>
      exact inductionHypothesis (everyLevel.tail everyLevel.1.tail)
  | enter _ _ _ counterparts _ nested _ nestedHypothesis inductionHypothesis =>
      rw [List.forall_mem_append]
      refine ⟨?_, inductionHypothesis (everyLevel.tail everyLevel.1.tail)⟩
      intro row isRow
      obtain ⟨below, isBelow, rfl⟩ := List.mem_map.mp isRow
      have isOwn := nestedHypothesis (everyLevel.below (.head _) counterparts.right) below isBelow
      rw [List.dropLast_cons_of_ne_nil (nested.names_ne_nil below isBelow), List.cons_append,
        ← isOwn]

theorem Schema.declareEach_of_installs {dataset : Option Uuid} {schema grown : Schema}
    {rows : List (List String × Field)}
    (each : ∀ row ∈ rows, Path.segments (Path.dotted row.1) = row.1 ∧
      row.1 = row.1.dropLast ++ [row.2.name])
    (installs : Installs (declarationsOf dataset none rows) schema grown) :
    Schema.declareEach dataset schema (entriesOfRows none rows) = .ok grown := by
  induction rows generalizing schema with
  | nil =>
      cases installs
      rfl
  | cons row rest inductionHypothesis =>
      rw [List.forall_mem_cons] at each
      obtain ⟨⟨isPath, isOwn⟩, others⟩ := each
      rw [declarationsOf, List.map_cons] at installs
      cases installs with
      | cons applies installs =>
          have isDeclared := declareAt_of_applies
            (isPath.trans (isOwn.trans (by rw [Field.copy, Field.detach, Field.name_rebind])))
            applies
          rw [entriesOfRows, List.map_cons, declareEach]
          exact bind_eq_ok_iff.mpr ⟨_, isDeclared, inductionHypothesis others installs⟩

theorem OwnNames.dotFree {fields : List (String × Field)} (ownNames : OwnNames fields) :
    DotFree fields := by
  refine ⟨ownNames.distinct, fun name isKey => ?_⟩
  obtain ⟨entry, isEntry, rfl⟩ := List.mem_map.mp isKey
  exact dot_notMem_of_isFieldName (ownNames.named entry isEntry).2

/-- Merging converges.  All that a merge adds can be declared, each field at its path; merging
again then adds nothing, and every path of the existing schema leads to a field of the same
type. -/
theorem Schema.merge_converges {existing incoming added : Schema} {validate recursive : Bool}
    {event : Event} (everyLevel : EveryLevel OwnNames incoming)
    (merged : existing.merge incoming validate recursive = .ok (added, event))
    (dataset : Option Uuid) :
    ∃ grown, Schema.declareEach dataset existing added = .ok grown ∧
      grown.merge incoming validate recursive = .ok ([], mergeEvent "" []) ∧
      ∀ path found, existing.effective? path = some found →
        ∃ other, grown.effective? path = some other ∧ other.type = found.type := by
  have dotFree := everyLevel.imp fun _ => OwnNames.dotFree
  obtain ⟨rows, merges, same⟩ := (merge_eq_ok_iff dotFree).mp merged
  obtain ⟨rfl, _⟩ := Prod.mk.inj same
  obtain ⟨grown, installs, converged⟩ :=
    merges.converges everyLevel dataset none existing fun _ _ => rfl
  refine ⟨grown, ?_, ?_, ?_⟩
  · refine declareEach_of_installs (fun row isRow => ?_) installs
    exact ⟨merges.segments_dotted dotFree isRow, merges.own_names everyLevel row isRow⟩
  · exact (merge_eq_ok_iff dotFree).mpr ⟨[], .of_absorbs converged.absorbs, rfl⟩
  · intro path found isFound
    unfold effective? at isFound ⊢
    cases segments : Path.segments path with
    | nil =>
        rw [segments] at isFound
        contradiction
    | cons name rest =>
        rw [segments] at isFound
        exact converged.kept name rest found isFound

/-- A stage with some fields declared on it. -/
def stages (declared : List Field) : Schema :=
  [("stage", .embeddedWith "stage" ⟨"Stage", none, []⟩ declared [])]

/-- Stages with one field more, and their number. -/
def countedStages : Schema :=
  stages [.int "width", .string "title"] ++ [("count", .int "count")]

theorem merge_converges_stages :
    let added : Schema := [("stage.title", .string "title"), ("count", .int "count")]
    (EveryLevel OwnNames countedStages ∧
        Schema.merge (stages [.int "width"]) countedStages true true =
          .ok (added, mergeEvent "" added)) ∧
      ∃ grown, Schema.declareEach none (stages [.int "width"]) added = .ok grown ∧
        grown.merge countedStages true true = .ok ([], mergeEvent "" []) ∧
        ∀ path found, (stages [.int "width"]).effective? path = some found →
          ∃ other, grown.effective? path = some other ∧ other.type = found.type := by
  have ownNames : OwnNames
      [("width", (Field.int "width").copy), ("title", (Field.string "title").copy)] := by
    refine ⟨by decide, ?_⟩
    rintro entry isEntry
    rcases List.mem_pair.mp isEntry with rfl | rfl <;> decide
  have everyLevel : EveryLevel OwnNames countedStages := by
    refine ⟨⟨by decide, ?_⟩, ⟨?_, ⟨nofun, trivial⟩, ⟨nofun, trivial⟩, trivial⟩,
      ⟨nofun, trivial⟩, trivial⟩
    · rintro entry isEntry
      rcases List.mem_pair.mp isEntry with rfl | rfl <;> decide
    · rintro nested ⟨⟩
      exact ownNames
  have merged : Schema.merge (stages [.int "width"]) countedStages true true =
      .ok ([("stage.title", .string "title"), ("count", .int "count")], mergeEvent "" _) := rfl
  exact ⟨⟨everyLevel, merged⟩, Schema.merge_converges everyLevel merged none⟩

end SchemaTree
