import SchemaTree.DocumentType
import SchemaTree.Proofs.Field.Binding
import SchemaTree.Proofs.Mapping

/-!
Defaults of document types.  A type that was built has the defaults of its parent, extended by
detached copies of its own fields under their names.
-/

namespace SchemaTree

/-- The entries of detached copies of fields, under the names of the fields. -/
def Field.copies (fields : List Field) : List (String × Field) :=
  fields.map fun field => (field.name, field.copy)

@[simp]
theorem Field.keys_copies (fields : List Field) :
    Mapping.keys (copies fields) = fields.map Field.name := by
  rw [Mapping.keys, copies, List.map_map]
  rfl

theorem Field.lookup_copies_eq_find? (fields : List Field) (name : String) :
    Mapping.lookup (copies fields) name =
      (fields.find? fun field => field.name = name).map Field.copy := by
  induction fields with
  | nil => rfl
  | cons field rest inductionHypothesis =>
      rw [copies, List.map_cons, Mapping.lookup, List.find?_cons, ← copies, inductionHypothesis]
      by_cases same : field.name = name <;> simp [same]

theorem Field.lookup_copies (fields : List Field) (name : String) :
    Mapping.lookup (copies fields).reverse name =
      (fields.reverse.find? fun field => field.name = name).map Field.copy := by
  rw [copies, ← List.map_reverse]
  exact lookup_copies_eq_find? fields.reverse name

theorem Field.copy_of_lookup_copies {fields : List Field} {name : String} {found : Field}
    (isFound : Mapping.lookup (copies fields).reverse name = some found) :
    ∃ field ∈ fields, field.name = name ∧ field.copy = found := by
  have member := List.mem_reverse.mp (Mapping.mem_of_lookup isFound)
  obtain ⟨field, isGiven, same⟩ := List.mem_map.mp member
  exact ⟨field, isGiven, congrArg Prod.fst same, congrArg Prod.snd same⟩

theorem Field.lookup_copies_eq_none_iff (fields : List Field) {name : String} :
    Mapping.lookup (copies fields).reverse name = none ↔ name ∉ fields.map Field.name := by
  rw [Mapping.lookup_eq_none_iff, Mapping.mem_keys_reverse, keys_copies]

namespace DocumentType

theorem addDefaults_eq_ok {typeName : String} {seen : List String}
    {fields added : List (String × Field)} {own : List Field}
    (succeeded : addDefaults typeName seen fields own = .ok added) :
    added = Mapping.extend fields (Field.copies own) := by
  induction own generalizing seen fields with
  | nil => exact (Except.ok.inj succeeded).symm
  | cons field rest inductionHypothesis =>
      cases outcome : checkFieldName field.name with
      | error error =>
          simp only [addDefaults, outcome] at succeeded
          contradiction
      | ok checked =>
          by_cases repeated : seen.contains field.name = true
          · simp only [addDefaults, outcome, if_pos repeated] at succeeded
            contradiction
          · simp only [addDefaults, outcome, if_neg repeated] at succeeded
            exact inductionHypothesis succeeded

/-- Own defaults have valid names, no two of them the same. -/
theorem names_of_addDefaults {typeName : String} {seen : List String}
    {fields added : List (String × Field)} {own : List Field}
    (succeeded : addDefaults typeName seen fields own = .ok added) :
    (∀ field ∈ own, isFieldName field.name = true) ∧ (own.map Field.name).Nodup ∧
      ∀ field ∈ own, field.name ∉ seen := by
  induction own generalizing seen fields with
  | nil => simp
  | cons field rest inductionHypothesis =>
      cases isName : isFieldName field.name with
      | false => simp [addDefaults, checkFieldName, isName] at succeeded
      | true =>
          by_cases repeated : field.name ∈ seen
          · simp [addDefaults, checkFieldName, isName, repeated] at succeeded
          · simp only [addDefaults, checkFieldName, isName, if_true, List.contains_iff_mem,
              if_neg repeated] at succeeded
            obtain ⟨areNames, distinct, fresh⟩ := inductionHypothesis succeeded
            simp only [List.mem_cons, not_or] at fresh
            refine ⟨List.forall_mem_cons.mpr ⟨isName, areNames⟩, ?_,
              List.forall_mem_cons.mpr ⟨repeated, fun other isOther => (fresh other isOther).2⟩⟩
            rw [List.map_cons, List.nodup_cons, List.mem_map]
            exact ⟨fun ⟨other, isOther, same⟩ => (fresh other isOther).1 same, distinct⟩

theorem exists_addDefaults_of_build {name : String} {parent : Option DocumentType}
    {own : List Field} {type : DocumentType} (built : build name parent own = .ok type) :
    ∃ fields, addDefaults name [] (inheritedFields parent) own = .ok fields ∧
      type = ⟨name, parent, fields⟩ := by
  unfold build at built
  by_cases unnamed : name = ""
  · rw [if_pos unnamed] at built
    contradiction
  · rw [if_neg unnamed] at built
    cases outcome : addDefaults name [] (inheritedFields parent) own with
    | error error =>
        rw [outcome] at built
        contradiction
    | ok fields =>
        rw [outcome] at built
        exact ⟨fields, rfl, (Except.ok.inj built).symm⟩

theorem build_eq_ok {name : String} {parent : Option DocumentType} {own : List Field}
    {type : DocumentType} (built : build name parent own = .ok type) :
    type = ⟨name, parent, Mapping.extend (inheritedFields parent) (Field.copies own)⟩ := by
  obtain ⟨fields, isAdded, rfl⟩ := exists_addDefaults_of_build built
  rw [addDefaults_eq_ok isAdded]

/-- Defaults have distinct names, and are attached nowhere. -/
structure Consistent (type : DocumentType) : Prop where
  distinct : (Mapping.keys type.fields).Nodup
  detached : ∀ name field, Mapping.lookup type.fields name = some field → field.detach = field

theorem consistent_of_build {name : String} {parent : Option DocumentType} {own : List Field}
    {type : DocumentType} (built : build name parent own = .ok type)
    (parents : ∀ outer, parent = some outer → outer.Consistent) : type.Consistent := by
  rw [build_eq_ok built]
  constructor
  · apply Mapping.nodup_extend
    cases parent with
    | none => exact List.nodup_nil
    | some outer => exact (parents outer rfl).distinct
  · intro key field isFound
    rw [Mapping.lookup_extend, Option.or_eq_some_iff] at isFound
    rcases isFound with isOwn | ⟨_, isInherited⟩
    · obtain ⟨given, _, _, rfl⟩ := Field.copy_of_lookup_copies isOwn
      exact given.detach_copy
    · cases parent with
      | none => contradiction
      | some outer => exact (parents outer rfl).detached key field isInherited

/-- Document types that are built from fields, over parents that are built so. -/
inductive Built : DocumentType → Prop
  | build {name : String} {parent : Option DocumentType} {own : List Field} {type : DocumentType}
      (built : DocumentType.build name parent own = .ok type)
      (parents : ∀ outer, parent = some outer → Built outer) : Built type

theorem Built.consistent {type : DocumentType} (built : type.Built) : type.Consistent := by
  induction built with
  | build built _ inductionHypothesis => exact consistent_of_build built inductionHypothesis

/-! ## Ancestors -/

/-- A type and all types that it derives from. -/
def ancestors : DocumentType → List DocumentType
  | ⟨name, none, fields⟩ => [⟨name, none, fields⟩]
  | ⟨name, some parent, fields⟩ => ⟨name, some parent, fields⟩ :: parent.ancestors

theorem self_mem_ancestors (type : DocumentType) : type ∈ type.ancestors := by
  obtain ⟨name, parent, fields⟩ := type
  cases parent <;> simp [ancestors]

theorem ancestors_subset {type ancestor : DocumentType} (isAncestor : ancestor ∈ type.ancestors) :
    ancestor.ancestors ⊆ type.ancestors := by
  match type with
  | ⟨name, none, fields⟩ =>
      obtain rfl := List.mem_singleton.mp isAncestor
      exact List.Subset.refl _
  | ⟨name, some parent, fields⟩ =>
      rcases List.mem_cons.mp isAncestor with rfl | isInherited
      · exact List.Subset.refl _
      · exact List.subset_cons_of_subset _ (ancestors_subset isInherited)

/-- A type is a subclass of those that have the name of one of its ancestors. -/
theorem isSubclassOf_iff (type other : DocumentType) :
    type.isSubclassOf other = true ↔ ∃ ancestor ∈ type.ancestors, ancestor.name = other.name := by
  match type with
  | ⟨name, none, fields⟩ => simp [isSubclassOf, ancestors]
  | ⟨name, some parent, fields⟩ =>
      simp [isSubclassOf, ancestors, isSubclassOf_iff parent other]

/-- If the type between is told by its name among the ancestors of the first, subclasses of
subclasses are subclasses. -/
theorem isSubclassOf_trans {first middle last : DocumentType}
    (identified : ∀ ancestor ∈ first.ancestors, ancestor.name = middle.name → ancestor = middle)
    (derives : first.isSubclassOf middle = true) (inherits : middle.isSubclassOf last = true) :
    first.isSubclassOf last = true := by
  rw [isSubclassOf_iff] at derives inherits ⊢
  obtain ⟨ancestor, isAncestor, sameName⟩ := derives
  obtain rfl := identified ancestor isAncestor sameName
  obtain ⟨root, isRoot, isLast⟩ := inherits
  exact ⟨root, ancestors_subset isAncestor isRoot, isLast⟩

end DocumentType

end SchemaTree
