import Mathlib.Data.List.DropRight
import SchemaTree.Field.Constructors
import SchemaTree.Field.Virtual
import SchemaTree.Proofs.Field.Binding
import SchemaTree.Proofs.Mapping
import SchemaTree.Schema

/-!
Runs of declarations and removals on an empty schema.  What a schema has under a name is told by
the history of the name: by the declarations since the name was last removed, of which the first
gives the flags and the last gives all else.
-/

namespace SchemaTree

namespace Schema

/-- A call on a schema. -/
inductive Call where
  | declare (dataset : Option Uuid) (field : Field)
  | remove (name : String)

/-- The schema after a call, which is unchanged if the call fails. -/
def perform (schema : Schema) : Call → Schema
  | .declare dataset field => match schema.declare dataset field with
    | .ok (after, _) => after
    | .error _ => schema
  | .remove name => match schema.remove name with
    | some (_, after) => after
    | none => schema

/-- The schema that a run of calls makes of the empty one. -/
def ofCalls (calls : List Call) : Schema :=
  calls.foldl perform []

/-- A field that a successful declaration installs, and the dataset that it was given. -/
structure Installation where
  dataset : Option Uuid
  field : Field

/-- What a call installs under a name. -/
def Call.installed? (name : String) : Call → Option Installation
  | .declare dataset field =>
      if field.name = name ∧ isFieldName name = true then some ⟨dataset, field⟩ else none
  | .remove _ => none

def Call.removes (name : String) : Call → Bool
  | .declare _ _ => false
  | .remove other => other = name

/-- What was installed under a name since it was last removed, in order. -/
def installations (calls : List Call) (name : String) : List Installation :=
  (calls.rtakeWhile fun call => !call.removes name).filterMap (Call.installed? name)

/-- The number of calls up to the last one that installed a field under a name. -/
def lastInstalled (calls : List Call) (name : String) : Nat :=
  (calls.rdropWhile fun call => (call.installed? name).isNone).length

/-- What a field has of the first and the last installation under its name: the flags are those of
the first, all else is of the last. -/
structure Stems (name : String) (first last : Installation) (entry : Field) : Prop where
  named : entry.name = name
  kind : entry.kind = last.field.kind.rebind entry.binding
  description : entry.attributes.description = last.field.attributes.description
  info : entry.attributes.info = last.field.attributes.info
  source : entry.source = last.field.source
  required : entry.required = first.field.required
  nullable : entry.nullable = first.field.nullable
  binding : entry.binding = last.dataset.map fun dataset => ⟨dataset, name⟩

/-! ## Histories -/

section Histories

variable (calls : List Call) (call : Call) (name : String)

theorem ofCalls_snoc : ofCalls (calls ++ [call]) = (ofCalls calls).perform call := by
  rw [ofCalls, List.foldl_append]
  rfl

theorem installations_snoc :
    installations (calls ++ [call]) name =
      if call.removes name then []
      else installations calls name ++ (call.installed? name).toList := by
  cases removes : call.removes name with
  | true =>
      rw [installations, List.rtakeWhile_concat_neg _ _ _ (by simp [removes]), if_pos rfl]
      rfl
  | false =>
      rw [installations, List.rtakeWhile_concat_pos _ _ _ (by simp [removes]), if_neg nofun,
        List.filterMap_append]
      cases installed : call.installed? name <;> simp [installations, installed]

theorem lastInstalled_snoc :
    lastInstalled (calls ++ [call]) name =
      if (call.installed? name).isSome then calls.length + 1 else lastInstalled calls name := by
  cases installed : call.installed? name with
  | none =>
      rw [lastInstalled, List.rdropWhile_concat_pos _ _ _ (by simp [installed])]
      rfl
  | some installation =>
      rw [lastInstalled, List.rdropWhile_concat_neg _ _ _ (by simp [installed])]
      simp

theorem lastInstalled_le : lastInstalled calls name ≤ calls.length :=
  (List.rdropWhile_prefix _ _).length_le

end Histories

/-! ## Single calls -/

/-- A declaration succeeds exactly under a valid name; it moves the name to the end. -/
theorem declare_cases (schema : Schema) (dataset : Option Uuid) (field : Field) :
    isFieldName field.name = false ∧
        schema.declare dataset field = .error (.invalid none (.fieldName field.name)) ∧
        schema.perform (.declare dataset field) = schema ∨
      isFieldName field.name = true ∧
        (∃ event, schema.declare dataset field =
          .ok (schema.perform (.declare dataset field), event)) ∧
        schema.perform (.declare dataset field) = Mapping.erase schema field.name ++
          [(field.name, (Embedded.inheritFlags field (Mapping.lookup schema field.name)).place
            dataset field.name)] := by
  cases isName : isFieldName field.name with
  | false => exact .inl (by simp [declare, perform, checkFieldName, isName])
  | true => exact .inr (by simp [declare, perform, checkFieldName, isName])

theorem perform_remove (schema : Schema) (name : String) :
    schema.perform (.remove name) = Mapping.erase schema name := by
  cases isFound : Mapping.lookup schema name with
  | none =>
      rw [Mapping.erase_of_notMem (Mapping.lookup_eq_none_iff.mp isFound)]
      simp [perform, remove, isFound]
  | some field => simp [perform, remove, isFound]

theorem lookup_perform (schema : Schema) (call : Call) (name : String) :
    Mapping.lookup (schema.perform call) name =
      if call.removes name then none
      else match call.installed? name with
        | some installation =>
            some ((Embedded.inheritFlags installation.field (Mapping.lookup schema name)).place
              installation.dataset name)
        | none => Mapping.lookup schema name := by
  cases call with
  | remove other =>
      rw [perform_remove, Mapping.lookup_erase]
      by_cases isHere : other = name <;> simp [Call.removes, Call.installed?, isHere]
  | declare dataset field =>
      rw [Call.removes, if_neg nofun]
      rcases schema.declare_cases dataset field with ⟨isName, _, same⟩ | ⟨isName, _, same⟩
      · rw [same]
        by_cases isHere : field.name = name
        · subst isHere
          simp [Call.installed?, isName]
        · simp [Call.installed?, isHere]
      · rw [same, Mapping.lookup_append, Mapping.lookup_erase]
        by_cases isHere : field.name = name
        · subst isHere
          simp [Call.installed?, isName, Mapping.lookup]
        · simp [Call.installed?, isHere, Mapping.lookup]

/-! ## Runs -/

/-- The field that installations under a name leave there: the last one, with the flags of the
first. -/
def fieldOf? (name : String) (installations : List Installation) : Option Field :=
  installations.head?.bind fun first =>
    installations.getLast?.map fun last =>
      ((last.field.setRequired first.field.required).setNullable first.field.nullable).place
        last.dataset name

theorem fieldOf?_snoc (name : String) (installations : List Installation) (last : Installation) :
    fieldOf? name (installations ++ [last]) =
      some ((Embedded.inheritFlags last.field (fieldOf? name installations)).place last.dataset
        name) := by
  cases installations with
  | nil =>
      obtain ⟨dataset, attributes, kind⟩ := last
      rfl
  | cons first rest =>
      obtain ⟨former, isFormer⟩ : ∃ former, (first :: rest).getLast? = some former :=
        ⟨_, List.getLast?_eq_some_getLast (List.cons_ne_nil first rest)⟩
      have isEntry : fieldOf? name (first :: rest) =
          some (((former.field.setRequired first.field.required).setNullable
            first.field.nullable).place former.dataset name) := by
        rw [fieldOf?, isFormer]
        rfl
      rw [isEntry, fieldOf?, List.getLast?_concat]
      rfl

/-- What a schema has under a name was installed there since the name was last removed. -/
theorem lookup_ofCalls (calls : List Call) (name : String) :
    Mapping.lookup (ofCalls calls) name = fieldOf? name (installations calls name) := by
  induction calls using List.reverseRecOn with
  | nil => rfl
  | append_singleton calls call inductionHypothesis =>
      rw [ofCalls_snoc, lookup_perform, installations_snoc, inductionHypothesis]
      cases call.removes name with
      | true => rfl
      | false =>
          rw [if_neg nofun, if_neg nofun]
          cases call.installed? name with
          | none => simp
          | some installation => exact (fieldOf?_snoc name _ installation).symm

theorem lastInstalled_snoc_of_none {calls : List Call} {call : Call} {name : String}
    (isNone : call.installed? name = none) :
    lastInstalled (calls ++ [call]) name = lastInstalled calls name := by
  rw [lastInstalled_snoc, isNone]
  rfl

/-- The names of a schema are in the order of their last installations. -/
theorem ordered_ofCalls (calls : List Call) :
    (Mapping.keys (ofCalls calls)).Pairwise fun former later =>
      lastInstalled calls former < lastInstalled calls later := by
  induction calls using List.reverseRecOn with
  | nil => exact .nil
  | append_singleton calls call inductionHypothesis =>
      rw [ofCalls_snoc]
      cases call with
      | remove other =>
          rw [perform_remove, Mapping.keys_erase]
          refine (inductionHypothesis.filter _).imp fun before => ?_
          rwa [lastInstalled_snoc_of_none rfl, lastInstalled_snoc_of_none rfl]
      | declare dataset field =>
          -- No other name than the one that is installed has a new last installation.
          have isNone {name : String} (isOther : field.name = name → isFieldName name = false) :
              (Call.declare dataset field).installed? name = none :=
            if_neg fun ⟨isHere, isName⟩ => by simp [isOther isHere] at isName
          rcases (ofCalls calls).declare_cases dataset field with
            ⟨isName, _, same⟩ | ⟨isName, _, same⟩
          · rw [same]
            refine inductionHypothesis.imp fun {former later} before => ?_
            rwa [lastInstalled_snoc_of_none (isNone fun isHere => isHere ▸ isName),
              lastInstalled_snoc_of_none (isNone fun isHere => isHere ▸ isName)]
          · have earlier {name : String}
                (isEarlier : name ∈ (Mapping.keys (ofCalls calls)).filter (· ≠ field.name)) :
                lastInstalled (calls ++ [.declare dataset field]) name =
                  lastInstalled calls name := by
              have isOther : name ≠ field.name := by simpa using (List.mem_filter.mp isEarlier).2
              exact lastInstalled_snoc_of_none (isNone fun isHere => absurd isHere.symm isOther)
            rw [same, Mapping.keys_append, Mapping.keys_erase, List.pairwise_append]
            refine ⟨(inductionHypothesis.filter _).imp_of_mem ?_, List.pairwise_singleton _ _, ?_⟩
            · intro former later isFormer isLater before
              rwa [earlier isFormer, earlier isLater]
            · intro former isFormer later isLater
              obtain rfl := List.mem_singleton.mp isLater
              have isLast : lastInstalled (calls ++ [.declare dataset field]) field.name =
                  calls.length + 1 := by
                simp [lastInstalled_snoc, Call.installed?, isName]
              rw [earlier isFormer, isLast]
              exact Nat.lt_succ_of_le (lastInstalled_le calls former)

theorem fieldOf?_eq_none_iff {name : String} {installations : List Installation} :
    fieldOf? name installations = none ↔ installations = [] := by
  cases installations <;> simp [fieldOf?]

/-- An entry stems from the first and the last of the installations that it is made by. -/
theorem stems_of_fieldOf? {name : String} {installations : List Installation} {entry : Field}
    (named : ∀ installation ∈ installations, installation.field.name = name)
    (isEntry : fieldOf? name installations = some entry) :
    ∃ first last, installations.head? = some first ∧ installations.getLast? = some last ∧
      Stems name first last entry := by
  obtain ⟨first, isFirst, isEntry⟩ := Option.bind_eq_some_iff.mp isEntry
  obtain ⟨last, isLast, rfl⟩ := Option.map_eq_some_iff.mp isEntry
  refine ⟨first, last, isFirst, isLast, ?_⟩
  have isNamed := named last (List.mem_of_getLast? isLast)
  obtain ⟨dataset, attributes, kind⟩ := last
  exact {
    named := isNamed
    kind := rfl
    description := rfl
    info := rfl
    source := by
      rw [Field.source, Field.place, Field.expression_rebind, Option.map_map]
      rfl
    required := rfl
    nullable := rfl
    binding := rfl }

theorem name_of_mem_installations {calls : List Call} {name : String} {installation : Installation}
    (isInstalled : installation ∈ installations calls name) : installation.field.name = name := by
  obtain ⟨call, _, isInstalled⟩ := List.mem_filterMap.mp isInstalled
  cases call with
  | remove other => contradiction
  | declare dataset field =>
      rw [Call.installed?, Option.ite_none_right_eq_some] at isInstalled
      obtain ⟨⟨isHere, _⟩, ⟨⟩⟩ := isInstalled
      exact isHere

/-- A schema is told by the history of its names.  A declaration that fails changes nothing; the
names are those that were installed since they were last removed, each once, in the order of their
last installations; and every entry stems from the first and the last installation since. -/
theorem history_of_calls (calls : List Call) :
    (∀ dataset field,
        isFieldName field.name = false ∧
            (ofCalls calls).declare dataset field =
              .error (.invalid none (.fieldName field.name)) ∧
            ofCalls (calls ++ [.declare dataset field]) = ofCalls calls ∨
          isFieldName field.name = true ∧ ∃ event, (ofCalls calls).declare dataset field =
            .ok (ofCalls (calls ++ [.declare dataset field]), event)) ∧
      (∀ name, name ∈ Mapping.keys (ofCalls calls) ↔ installations calls name ≠ []) ∧
      (Mapping.keys (ofCalls calls)).Nodup ∧
      ((Mapping.keys (ofCalls calls)).Pairwise fun former later =>
        lastInstalled calls former < lastInstalled calls later) ∧
      ∀ name entry, Mapping.lookup (ofCalls calls) name = some entry →
        ∃ first last, (installations calls name).head? = some first ∧
          (installations calls name).getLast? = some last ∧ Stems name first last entry := by
  have ordered := ordered_ofCalls calls
  refine ⟨fun dataset field => ?_, fun name => ?_, ?_, ordered, fun name entry isFound => ?_⟩
  · rw [ofCalls_snoc]
    rcases (ofCalls calls).declare_cases dataset field with failed | ⟨isName, installed, _⟩
    · exact .inl failed
    · exact .inr ⟨isName, installed⟩
  · rw [← not_iff_not, not_ne_iff, ← Mapping.lookup_eq_none_iff, lookup_ofCalls,
      fieldOf?_eq_none_iff]
  · refine ordered.imp fun {former later} before same => ?_
    rw [same] at before
    exact Nat.lt_irrefl _ before
  · rw [lookup_ofCalls] at isFound
    exact stems_of_fieldOf? (fun _ => name_of_mem_installations) isFound

def library : Uuid := ⟨List.replicate 16 9, rfl⟩

/-- A year is declared as required, and again as text that is attached; a title is declared,
removed and declared again.  No field is called after an operator. -/
def catalogue : List Call :=
  [.declare none ((Field.int "year").setRequired true), .declare none (.string "title"),
    .declare (some library) (.string "year"), .remove "title", .declare none (.int "$year"),
    .declare none ((Field.string "title").setNullable false)]

theorem history_of_calls_catalogue :
    Mapping.keys (ofCalls catalogue) = ["year", "title"] ∧
      ∃ year, Mapping.lookup (ofCalls catalogue) "year" = some year ∧
        year.kind = .string ∧ year.required = true ∧ year.binding = some ⟨library, "year"⟩ := by
  obtain ⟨_, _, _, _, each⟩ := history_of_calls catalogue
  obtain ⟨year, isYear⟩ : ∃ year, Mapping.lookup (ofCalls catalogue) "year" = some year := ⟨_, rfl⟩
  obtain ⟨first, last, isFirst, isLast, stems⟩ := each "year" year isYear
  obtain rfl : ⟨none, (Field.int "year").setRequired true⟩ = first := Option.some.inj isFirst
  obtain rfl : ⟨some library, .string "year"⟩ = last := Option.some.inj isLast
  exact ⟨rfl, year, isYear, stems.kind, stems.required, stems.binding⟩

end Schema

end SchemaTree
