import SchemaTree.Embedded
import SchemaTree.Proofs.DocumentType

/-!
Runs of edits on an embedded document.  Whatever the run, the names of the effective fields are the
declared ones and the defaults that were not displaced, and a name that is not declared holds the
default of the document type.
-/

namespace SchemaTree

/-- An edit of the fields of an embedded document. -/
inductive Edit where
  | declare (dataset : Option Uuid) (path : String) (field : Field)
  | rename (dataset : Option Uuid) (old path : String) (field : Field)
  | remove (name : String)

/-- The field that an edit installs. -/
def Edit.field? : Edit → Option Field
  | declare _ _ field => some field
  | rename _ _ _ field => some field
  | remove _ => none

namespace Embedded

/-- The payload after an edit, which is unchanged if the edit fails. -/
def apply (nested : Embedded) : Edit → Embedded
  | .declare dataset path field => match nested.declareField dataset path field with
    | .ok (after, _) => after
    | .error _ => nested
  | .rename dataset old path field => match nested.renameField dataset old path field with
    | .ok (after, _) => after
    | .error _ => nested
  | .remove name => match nested.removeField name with
    | some (_, after, _) => after
    | none => nested

/-- The payload after a run of edits. -/
def run (nested : Embedded) (edits : List Edit) : Embedded :=
  edits.foldl apply nested

/-! ## Single edits -/

section Displaced

variable (nested : Embedded) (name : String)

@[simp]
theorem documentType_displace : (nested.displace name).documentType = nested.documentType := by
  unfold displace
  split <;> rfl

@[simp]
theorem view_displace : (nested.displace name).view = nested.view := by
  unfold displace
  split <;> rfl

theorem isDefault_iff :
    nested.isDefault name = true ↔ name ∈ Mapping.keys nested.documentType.fields :=
  Mapping.contains_iff

theorem mem_displaced_displace (other : String) :
    other ∈ (nested.displace name).displaced ↔
      other ∈ nested.displaced ∨
        other = name ∧ other ∈ Mapping.keys nested.documentType.fields := by
  have default_of_same : (other = name ∧ other ∈ Mapping.keys nested.documentType.fields) ↔
      other = name ∧ nested.isDefault name = true := by
    rw [isDefault_iff]
    exact and_congr_right fun same => by rw [same]
  rw [default_of_same, displace]
  by_cases isDefault : nested.isDefault name = true
  · by_cases isDisplaced : name ∈ nested.displaced
    · simp only [isDefault, List.contains_iff_mem.mpr isDisplaced, Bool.not_true, Bool.and_false,
        Bool.false_eq_true, if_false, and_true]
      constructor
      · exact Or.inl
      · rintro (isOther | rfl)
        · exact isOther
        · exact isDisplaced
    · simp [isDefault, isDisplaced]
  · simp [isDefault]

end Displaced

/-- What a successful declaration does: the name moves to the end of the fields and of the declared
names, and does not hold its default any more. -/
theorem apply_declare (nested : Embedded) (dataset : Option Uuid) (path : String) (field : Field) :
    nested.apply (.declare dataset path field) = nested ∨
      nested.apply (.declare dataset path field) =
        { nested with
          declared := nested.declared.filter (· ≠ field.name) ++ [field.name]
          displaced := (nested.displace field.name).displaced
          fields := Mapping.erase nested.fields field.name ++
            [(field.name, (inheritFlags field (Mapping.lookup nested.fields field.name)).place
              dataset path)] } := by
  cases outcome : checkFieldName field.name with
  | error error =>
      left
      simp only [apply, declareField, outcome]
  | ok checked =>
      right
      simp only [apply, declareField, outcome, documentType_displace, view_displace]

/-- What a successful renaming does: the field of the old name leaves, and the new one goes to the
end of the fields, but to the place of the old name among the declared ones. -/
theorem apply_rename (nested : Embedded) (dataset : Option Uuid) (old path : String)
    (field : Field) :
    nested.apply (.rename dataset old path field) = nested ∨
      (field.name ∈ Mapping.keys nested.fields → field.name = old) ∧
      nested.apply (.rename dataset old path field) =
        { nested with
          declared := renameDeclared nested.declared old field.name
          displaced := ((nested.displace old).displace field.name).displaced
          fields := Mapping.erase nested.fields old ++
            [(field.name, field.place dataset path)] } := by
  cases outcome : checkFieldName field.name with
  | error error =>
      left
      simp only [apply, renameField, outcome]
  | ok checked =>
      by_cases taken : field.name ≠ old ∧ Mapping.contains nested.fields field.name = true
      · left
        simp only [apply, renameField, outcome, if_pos taken]
      · right
        constructor
        · intro isKey
          by_contra different
          exact taken ⟨different, Mapping.contains_iff.mpr isKey⟩
        · simp only [apply, renameField, outcome, if_neg taken, documentType_displace,
            view_displace]

/-- What a successful removal does. -/
theorem apply_remove (nested : Embedded) (name : String) :
    nested.apply (.remove name) = nested ∨
      nested.apply (.remove name) =
        { nested with
          declared := nested.declared.filter (· ≠ name)
          displaced := (nested.displace name).displaced
          fields := Mapping.erase nested.fields name } := by
  cases outcome : Mapping.lookup nested.fields name with
  | none =>
      left
      simp only [apply, removeField, outcome, Option.map_none]
  | some field =>
      right
      simp only [apply, removeField, outcome, Option.map_some, documentType_displace,
        view_displace]

theorem mem_replaceFirst {old name : String} (new : String) {declared : List String}
    (isDeclared : old ∈ declared) (different : name ≠ old) :
    name ∈ replaceFirst old new declared ↔ name = new ∨ name ∈ declared := by
  induction declared with
  | nil => contradiction
  | cons first rest inductionHypothesis =>
      rw [replaceFirst]
      by_cases same : first = old
      · rw [if_pos same, List.mem_cons, List.mem_cons, same, or_iff_right different]
      · have inRest : old ∈ rest := List.mem_of_ne_of_mem (Ne.symm same) isDeclared
        rw [if_neg same, List.mem_cons, List.mem_cons, inductionHypothesis inRest]
        exact or_left_comm

theorem replaceFirst_self (name : String) (declared : List String) :
    replaceFirst name name declared = declared := by
  induction declared with
  | nil => rfl
  | cons first rest inductionHypothesis =>
      rw [replaceFirst, inductionHypothesis]
      by_cases same : first = name
      · rw [if_pos same, same]
      · rw [if_neg same]

theorem mem_moved {declared : List String} {old name : String} (new : String)
    (different : name ≠ old) :
    (name ∈ if declared.contains old then replaceFirst old new declared
      else if declared.contains new then declared else declared ++ [new]) ↔
        name = new ∨ name ∈ declared := by
  by_cases isDeclared : declared.contains old = true
  · rw [if_pos isDeclared, mem_replaceFirst new (List.contains_iff_mem.mp isDeclared) different]
  · rw [if_neg isDeclared]
    by_cases isNew : declared.contains new = true
    · rw [if_pos isNew]
      constructor
      · exact Or.inr
      · rintro (rfl | stays)
        · exact List.contains_iff_mem.mp isNew
        · exact stays
    · rw [if_neg isNew, List.mem_append, List.mem_singleton, or_comm]

/-- After a renaming the new name is declared, and the old one is not. -/
theorem mem_renameDeclared (declared : List String) (old new name : String) :
    name ∈ renameDeclared declared old new ↔ name = new ∨ name ∈ declared ∧ name ≠ old := by
  unfold renameDeclared
  by_cases same : new = old
  · rw [if_pos same, same]
    by_cases isOld : name = old
    · by_cases isDeclared : declared.contains old = true
      · rw [if_pos isDeclared, replaceFirst_self, isOld]
        exact iff_of_true (List.contains_iff_mem.mp isDeclared) (.inl rfl)
      · rw [if_neg isDeclared, if_neg isDeclared, isOld]
        exact iff_of_true (List.mem_append_right _ List.mem_cons_self) (.inl rfl)
    · rw [mem_moved old isOld, and_iff_left isOld]
  · rw [if_neg same, List.mem_filter, decide_eq_true_eq]
    by_cases isOld : name = old
    · rw [isOld]
      refine iff_of_false (fun moved => moved.2 rfl) ?_
      rintro (isNew | ⟨_, different⟩)
      · exact same isNew.symm
      · exact different rfl
    · rw [mem_moved new isOld, and_iff_left isOld, and_iff_left isOld]

/-! ## What edits preserve -/

/-- How the effective fields, the declared names and the displaced names hang together. -/
structure Consistent (nested : Embedded) : Prop where
  type : nested.documentType.Consistent
  distinct : (Mapping.keys nested.fields).Nodup
  displaced : ∀ name ∈ nested.displaced, name ∈ Mapping.keys nested.documentType.fields
  names : ∀ name, name ∈ Mapping.keys nested.fields ↔
    name ∈ nested.declared ∨
      name ∈ Mapping.keys nested.documentType.fields ∧ name ∉ nested.displaced
  declared : ∀ name ∈ nested.declared, ∀ field,
    Mapping.lookup nested.fields name = some field → field.name = name
  undeclared : ∀ name ∉ nested.declared, ∀ field,
    Mapping.lookup nested.fields name = some field →
      Mapping.lookup nested.documentType.fields name = some field.detach

variable {nested : Embedded}

section Build

variable (type : DocumentType) (fields : List Field) (displaced : List String)

/-- The defaults that hold their place. -/
def keptDefaults : List (String × Field) :=
  type.fields.filter fun entry => !(build type fields displaced).displaced.contains entry.1

theorem fields_build : (build type fields displaced).fields =
    Mapping.extend (keptDefaults type fields displaced) (Field.copies fields) :=
  rfl

theorem lookup_keptDefaults (name : String) :
    Mapping.lookup (keptDefaults type fields displaced) name =
      if name ∈ (build type fields displaced).displaced then none
      else Mapping.lookup type.fields name := by
  rw [keptDefaults, Mapping.lookup_filter type.fields
    fun key => !(build type fields displaced).displaced.contains key]
  by_cases isDisplaced : name ∈ (build type fields displaced).displaced
  · rw [List.contains_iff_mem.mpr isDisplaced, if_pos isDisplaced]
    rfl
  · rw [if_neg isDisplaced, if_pos (by simpa using isDisplaced)]

/-- The fields of a built payload: the last one given under a name, and else its default. -/
theorem lookup_build (name : String) :
    Mapping.lookup (build type fields displaced).fields name =
      (Mapping.lookup (Field.copies fields).reverse name).or
        (if name ∈ (build type fields displaced).displaced then none
          else Mapping.lookup type.fields name) := by
  rw [fields_build, Mapping.lookup_extend, lookup_keptDefaults]

variable {type}

theorem consistent_build (consistent : type.Consistent) :
    (build type fields displaced).Consistent where
  type := consistent
  distinct := by
    apply Mapping.nodup_extend
    exact consistent.distinct.sublist (List.filter_sublist.map Prod.fst)
  displaced := by
    intro name isDisplaced
    exact Mapping.contains_iff.mp (List.mem_filter.mp isDisplaced).2
  names := by
    intro name
    rw [fields_build, Mapping.mem_keys_extend, Field.keys_copies, or_comm, Mapping.mem_keys_iff,
      lookup_keptDefaults]
    refine or_congr Iff.rfl ?_
    by_cases isDisplaced : name ∈ (build type fields displaced).displaced
    · simp [isDisplaced]
    · rw [if_neg isDisplaced, ← Mapping.mem_keys_iff]
      exact (and_iff_left isDisplaced).symm
  declared := by
    intro name isDeclared found isFound
    rw [lookup_build, Option.or_eq_some_iff] at isFound
    rcases isFound with isGiven | ⟨isNone, _⟩
    · obtain ⟨field, _, named, rfl⟩ := Field.copy_of_lookup_copies isGiven
      exact (field.name_rebind none).trans named
    · exact absurd isDeclared ((Field.lookup_copies_eq_none_iff fields).mp isNone)
  undeclared := by
    intro name isUndeclared found isFound
    rw [lookup_build, (Field.lookup_copies_eq_none_iff fields).mpr isUndeclared, Option.none_or]
      at isFound
    by_cases isDisplaced : name ∈ (build type fields displaced).displaced
    · rw [if_pos isDisplaced] at isFound
      contradiction
    · rw [if_neg isDisplaced] at isFound
      rw [consistent.detached name found isFound]
      exact isFound

end Build

theorem lookup_erase_append {fields : List (String × Field)} {old new name : String}
    {field found : Field} (isFound :
      Mapping.lookup (Mapping.erase fields old ++ [(new, field)]) name = some found) :
    name ≠ old ∧ Mapping.lookup fields name = some found ∨ name = new ∧ found = field := by
  rw [Mapping.lookup_append, Mapping.lookup_erase, Option.or_eq_some_iff] at isFound
  rcases isFound with isOther | ⟨_, isNew⟩
  · by_cases same : old = name
    · rw [if_pos same] at isOther
      contradiction
    · rw [if_neg same] at isOther
      exact .inl ⟨Ne.symm same, isOther⟩
  · rw [Mapping.lookup] at isNew
    by_cases same : new = name
    · rw [if_pos same] at isNew
      exact .inr ⟨same.symm, (Option.some.inj isNew).symm⟩
    · rw [if_neg same] at isNew
      contradiction

/-- A field that is installed under its own name, in place of an old one or of none. -/
theorem Consistent.install (consistent : nested.Consistent) {old new : String} {field : Field}
    (named : field.name = new) (fresh : new ∈ Mapping.keys nested.fields → new = old)
    {declared displaced : List String}
    (isDeclared : ∀ name, name ∈ declared ↔
      name = new ∨ name ∈ nested.declared ∧ name ≠ old)
    (isDisplaced : ∀ name, name ∈ displaced ↔ name ∈ nested.displaced ∨
      (name = old ∨ name = new) ∧ name ∈ Mapping.keys nested.documentType.fields) :
    Consistent { nested with
      declared, displaced
      fields := Mapping.erase nested.fields old ++ [(new, field)] } where
  type := consistent.type
  distinct := Mapping.nodup_erase_append consistent.distinct fresh field
  displaced := by
    intro name displacedNow
    rcases (isDisplaced name).mp displacedNow with before | ⟨_, isDefault⟩
    · exact consistent.displaced name before
    · exact isDefault
  names := by
    intro name
    show name ∈ Mapping.keys (_ ++ _) ↔ name ∈ declared ∨ _ ∧ name ∉ displaced
    rw [Mapping.keys_append, List.mem_append, Mapping.mem_keys_erase, consistent.names name,
      isDeclared name, isDisplaced name]
    show _ ∨ name ∈ [new] ↔ _
    rw [List.mem_singleton]
    tauto
  declared := by
    intro name declaredNow found isFound
    rcases lookup_erase_append isFound with ⟨different, before⟩ | ⟨rfl, rfl⟩
    · rcases (isDeclared name).mp declaredNow with rfl | ⟨declaredBefore, _⟩
      · exact absurd (fresh (Mapping.mem_keys_of_lookup before)) different
      · exact consistent.declared name declaredBefore found before
    · exact named
  undeclared := by
    intro name undeclaredNow found isFound
    rw [isDeclared name, not_or, not_and_not_right] at undeclaredNow
    rcases lookup_erase_append isFound with ⟨different, before⟩ | ⟨rfl, _⟩
    · exact consistent.undeclared name (fun declaredBefore =>
        different (undeclaredNow.2 declaredBefore)) found before
    · exact absurd rfl undeclaredNow.1

theorem Consistent.drop (consistent : nested.Consistent) {old : String}
    {declared displaced : List String}
    (isDeclared : ∀ name, name ∈ declared ↔ name ∈ nested.declared ∧ name ≠ old)
    (isDisplaced : ∀ name, name ∈ displaced ↔ name ∈ nested.displaced ∨
      name = old ∧ name ∈ Mapping.keys nested.documentType.fields) :
    Consistent { nested with
      declared, displaced
      fields := Mapping.erase nested.fields old } where
  type := consistent.type
  distinct := Mapping.nodup_erase consistent.distinct old
  displaced := by
    intro name displacedNow
    rcases (isDisplaced name).mp displacedNow with before | ⟨_, isDefault⟩
    · exact consistent.displaced name before
    · exact isDefault
  names := by
    intro name
    show name ∈ Mapping.keys (Mapping.erase _ _) ↔ name ∈ declared ∨ _ ∧ name ∉ displaced
    rw [Mapping.mem_keys_erase, consistent.names name, isDeclared name, isDisplaced name]
    tauto
  declared := by
    intro name declaredNow found isFound
    obtain ⟨declaredBefore, different⟩ := (isDeclared name).mp declaredNow
    rw [Mapping.lookup_erase, if_neg (Ne.symm different)] at isFound
    exact consistent.declared name declaredBefore found isFound
  undeclared := by
    intro name undeclaredNow found isFound
    rw [isDeclared name, not_and_not_right] at undeclaredNow
    by_cases same : old = name
    · rw [Mapping.lookup_erase, if_pos same] at isFound
      contradiction
    · rw [Mapping.lookup_erase, if_neg same] at isFound
      exact consistent.undeclared name (fun declaredBefore =>
        same (undeclaredNow declaredBefore).symm) found isFound

@[simp]
theorem name_inheritFlags (field : Field) (previous : Option Field) :
    (inheritFlags field previous).name = field.name := by
  cases previous <;> rfl

@[simp]
theorem name_place (field : Field) (dataset : Option Uuid) (path : String) :
    (field.place dataset path).name = field.name :=
  field.name_rebind _

@[simp]
theorem documentType_apply (nested : Embedded) (edit : Edit) :
    (nested.apply edit).documentType = nested.documentType := by
  cases edit with
  | declare dataset path field =>
      rcases nested.apply_declare dataset path field with same | same <;> rw [same]
  | rename dataset old path field =>
      rcases nested.apply_rename dataset old path field with same | ⟨_, same⟩ <;> rw [same]
  | remove name =>
      rcases nested.apply_remove name with same | same <;> rw [same]

@[simp]
theorem view_apply (nested : Embedded) (edit : Edit) :
    (nested.apply edit).view = nested.view := by
  cases edit with
  | declare dataset path field =>
      rcases nested.apply_declare dataset path field with same | same <;> rw [same]
  | rename dataset old path field =>
      rcases nested.apply_rename dataset old path field with same | ⟨_, same⟩ <;> rw [same]
  | remove name =>
      rcases nested.apply_remove name with same | same <;> rw [same]

/-- A field that is found after an edit was found before it, or is the one that the edit was
given, but for flags and bindings. -/
theorem found_of_apply {nested : Embedded} {edit : Edit} {name : String} {found : Field}
    (isFound : Mapping.lookup (nested.apply edit).fields name = some found) :
    Mapping.lookup nested.fields name = some found ∨
      ∃ field, edit.field? = some field ∧ ∃ previous dataset path,
        found = (inheritFlags field previous).place dataset path := by
  cases edit with
  | declare dataset path field =>
      rcases nested.apply_declare dataset path field with same | same <;> rw [same] at isFound
      · exact .inl isFound
      · rcases lookup_erase_append isFound with ⟨_, before⟩ | ⟨_, rfl⟩
        · exact .inl before
        · exact .inr ⟨field, rfl, _, dataset, path, rfl⟩
  | rename dataset old path field =>
      rcases nested.apply_rename dataset old path field with same | ⟨_, same⟩ <;>
        rw [same] at isFound
      · exact .inl isFound
      · rcases lookup_erase_append isFound with ⟨_, before⟩ | ⟨_, rfl⟩
        · exact .inl before
        · exact .inr ⟨field, rfl, none, dataset, path, rfl⟩
  | remove other =>
      rcases nested.apply_remove other with same | same <;> rw [same] at isFound
      · exact .inl isFound
      · rw [Mapping.lookup_erase] at isFound
        by_cases same : other = name
        · rw [if_pos same] at isFound
          contradiction
        · rw [if_neg same] at isFound
          exact .inl isFound

/-- One edit, successful or not, keeps a payload consistent. -/
theorem Consistent.apply (consistent : nested.Consistent) (edit : Edit) :
    (nested.apply edit).Consistent := by
  cases edit with
  | declare dataset path field =>
      rcases nested.apply_declare dataset path field with same | same
      · rw [same]
        exact consistent
      · rw [same]
        apply consistent.install ((name_place _ dataset path).trans (name_inheritFlags field _))
        · intro _
          rfl
        · intro name
          rw [List.mem_append, List.mem_singleton, List.mem_filter, decide_eq_true_eq, or_comm]
        · intro name
          rw [mem_displaced_displace, or_self]
  | rename dataset old path field =>
      rcases nested.apply_rename dataset old path field with same | ⟨fresh, same⟩
      · rw [same]
        exact consistent
      · rw [same]
        apply consistent.install (name_place field dataset path) fresh
        · exact mem_renameDeclared nested.declared old field.name
        · intro name
          rw [mem_displaced_displace, mem_displaced_displace, documentType_displace, or_assoc,
            ← or_and_right]
  | remove name =>
      rcases nested.apply_remove name with same | same
      · rw [same]
        exact consistent
      · rw [same]
        apply consistent.drop
        · intro other
          rw [List.mem_filter, decide_eq_true_eq]
        · intro other
          rw [mem_displaced_displace]

/-- A run of edits keeps a payload consistent. -/
theorem Consistent.run (consistent : nested.Consistent) (edits : List Edit) :
    (nested.run edits).Consistent := by
  unfold Embedded.run
  induction edits generalizing nested with
  | nil => exact consistent
  | cons edit rest inductionHypothesis => exact inductionHypothesis (consistent.apply edit)

@[simp]
theorem documentType_run (nested : Embedded) (edits : List Edit) :
    (nested.run edits).documentType = nested.documentType := by
  unfold run
  induction edits generalizing nested with
  | nil => rfl
  | cons edit rest inductionHypothesis =>
      exact (inductionHypothesis (nested.apply edit)).trans (nested.documentType_apply edit)

end Embedded

end SchemaTree
