import SchemaTree.Field.Constructors
import SchemaTree.Proofs.Field.Everywhere
import SchemaTree.Proofs.Merge

/-!
The paths that a merge reports.  Two levels are open to each other if a row of names leads to them
through counterparts; the new paths are those of the names that the incoming one of two open levels
has and the existing one lacks.  A merge without checks gives these paths and no others, each once
and in the order of the incoming schema, depth first.
-/

namespace SchemaTree

/-- The levels that a row of names leads to on both sides, through counterparts all the way. -/
inductive OpenAt : List (String × Field) → List (String × Field) → List String →
    List (String × Field) → List (String × Field) → Prop
  | here (existing incoming : List (String × Field)) :
      OpenAt existing incoming [] existing incoming
  | enter {existing incoming outerLevel innerLevel : List (String × Field)} {name : String}
      {names : List String} {left right : Field} {outer inner : Embedded}
      (isLeft : Mapping.lookup existing name = some left)
      (isRight : Mapping.lookup incoming name = some right)
      (counterparts : Counterparts left right outer inner)
      (isOpen : OpenAt outer.fields inner.fields names outerLevel innerLevel) :
      OpenAt existing incoming (name :: names) outerLevel innerLevel

/-- A field at a row of names that is new: the names before the last lead to two open levels, the
existing one lacks the last name, and the field is what the incoming one has there. -/
inductive NewAt (existing incoming : List (String × Field)) : List String → Field → Prop
  | intro {names : List String} {name : String} {field : Field}
      {outerLevel innerLevel : List (String × Field)}
      (isOpen : OpenAt existing incoming names outerLevel innerLevel)
      (isMissing : Mapping.lookup outerLevel name = none)
      (isFound : Mapping.lookup innerLevel name = some field) :
      NewAt existing incoming (names ++ [name]) field

section Rows

variable {validate recursive : Bool} {existing incoming rest : List (String × Field)}
variable {name : String} {names : List String} {field left right : Field}
variable {outer inner : Embedded} {rows : List (List String × Field)}

theorem Counterparts.unique {outer' inner' : Embedded}
    (first : Counterparts left right outer inner)
    (second : Counterparts left right outer' inner') : outer = outer' ∧ inner = inner' := by
  cases first <;> cases second <;> exact ⟨rfl, rfl⟩

theorem NewAt.enter (isLeft : Mapping.lookup existing name = some left)
    (isRight : Mapping.lookup incoming name = some right)
    (counterparts : Counterparts left right outer inner)
    (isNew : NewAt outer.fields inner.fields names field) :
    NewAt existing incoming (name :: names) field := by
  cases isNew with
  | intro isOpen isMissing isFound =>
      exact .intro (.enter isLeft isRight counterparts isOpen) isMissing isFound

/-- What is new is so at its first name, or below it. -/
theorem newAt_iff :
    NewAt existing incoming names field ↔
      ∃ name right, Mapping.lookup incoming name = some right ∧
        (Mapping.lookup existing name = none ∧ names = [name] ∧ right = field ∨
          ∃ left outer inner below, Mapping.lookup existing name = some left ∧
            Counterparts left right outer inner ∧ names = name :: below ∧
            NewAt outer.fields inner.fields below field) := by
  constructor
  · rintro ⟨isOpen, isMissing, isFound⟩
    cases isOpen with
    | here => exact ⟨_, _, isFound, .inl ⟨isMissing, rfl, rfl⟩⟩
    | enter isLeft isRight counterparts isOpen =>
        exact ⟨_, _, isRight, .inr ⟨_, _, _, _, isLeft, counterparts, rfl,
          .intro isOpen isMissing isFound⟩⟩
  · rintro ⟨name, right, isRight, ⟨isMissing, rfl, rfl⟩ |
      ⟨left, outer, inner, below, isLeft, counterparts, rfl, isNew⟩⟩
    · simpa using NewAt.intro (.here existing incoming) isMissing isRight
    · exact .enter isLeft isRight counterparts isNew

theorem newAt_cons_iff (fresh : name ∉ Mapping.keys rest) :
    NewAt existing ((name, right) :: rest) names field ↔
      (Mapping.lookup existing name = none ∧ names = [name] ∧ right = field ∨
        ∃ left outer inner below, Mapping.lookup existing name = some left ∧
          Counterparts left right outer inner ∧ names = name :: below ∧
          NewAt outer.fields inner.fields below field) ∨
      NewAt existing rest names field := by
  rw [newAt_iff, newAt_iff]
  constructor
  · rintro ⟨other, found, isFound, isNew⟩
    rcases (Mapping.lookup_cons_iff fresh).mp isFound with ⟨rfl, rfl⟩ | isLater
    · exact .inl isNew
    · exact .inr ⟨other, found, isLater, isNew⟩
  · rintro (isNew | ⟨other, found, isLater, isNew⟩)
    · exact ⟨name, right, (Mapping.lookup_cons_iff fresh).mpr (.inl ⟨rfl, rfl⟩), isNew⟩
    · exact ⟨other, found, (Mapping.lookup_cons_iff fresh).mpr (.inr isLater), isNew⟩

/-- The rows of a merge without checks are those of the new fields. -/
theorem Merges.mem_iff_newAt (merges : Merges false true existing incoming rows)
    (everyLevel : EveryLevel DotFree incoming) :
    (names, field) ∈ rows ↔ NewAt existing incoming names field := by
  induction merges generalizing names field with
  | nil =>
      rw [newAt_iff]
      simp [Mapping.lookup]
  | missing isMissing _ inductionHypothesis =>
      rw [newAt_cons_iff everyLevel.1.fresh, List.mem_cons,
        inductionHypothesis (everyLevel.tail everyLevel.1.tail)]
      simp [isMissing, eq_comm]
  | pass isFound _ isApart _ inductionHypothesis =>
      rw [newAt_cons_iff everyLevel.1.fresh,
        inductionHypothesis (everyLevel.tail everyLevel.1.tail), isFound]
      have unrelated := (isApart rfl).unrelated
      simp [unrelated]
  | @enter existing rest name left right outer inner below rows _ isFound _ counterparts _ _ _
      nestedHypothesis inductionHypothesis =>
      rw [newAt_cons_iff everyLevel.1.fresh, List.mem_append,
        inductionHypothesis (everyLevel.tail everyLevel.1.tail), isFound]
      refine or_congr_left ?_
      constructor
      · intro isBelow
        obtain ⟨row, isRow, same⟩ := List.mem_map.mp isBelow
        cases same
        exact .inr ⟨left, outer, inner, row.1, rfl, counterparts, rfl,
          (nestedHypothesis (everyLevel.below List.mem_cons_self counterparts.right)).mp isRow⟩
      · rintro (⟨isMissing, _⟩ | ⟨_, _, _, below, ⟨⟩, others, rfl, isNew⟩)
        · contradiction
        · obtain ⟨rfl, rfl⟩ := counterparts.unique others
          have isBelow := nestedHypothesis
            (everyLevel.below List.mem_cons_self counterparts.right) |>.mpr isNew
          exact List.mem_map.mpr ⟨(below, field), isBelow, rfl⟩

end Rows

/-- A merge without checks always succeeds, and gives the detached copies of the new fields under
their dotted paths: all of them and no others, each once, in the depth-first order of the incoming
schema. -/
theorem Schema.merge_gives_new_paths (existing incoming : Schema)
    (everyLevel : EveryLevel DotFree incoming) :
    ∃ added, existing.merge incoming false true = .ok (added, mergeEvent "" added) ∧
      (∀ path field, (path, field) ∈ added ↔ ∃ names new,
        NewAt existing incoming names new ∧ Path.dotted names = path ∧ new.copy = field) ∧
      (Mapping.keys added).Nodup ∧
      (Mapping.keys added).Sublist ((entryRows incoming).map Path.dotted) := by
  obtain ⟨rows, merges⟩ := exists_merges_unchecked true existing incoming
  refine ⟨entriesOfRows none rows, (merge_eq_ok_iff everyLevel).mpr ⟨rows, merges, rfl⟩, ?_,
    merges.nodup_paths everyLevel, ?_⟩
  · intro path field
    have isRow : ∀ row, row ∈ rows ↔ NewAt existing incoming row.1 row.2 :=
      fun _ => merges.mem_iff_newAt everyLevel
    simp only [entriesOfRows, List.mem_map, isRow, Prod.exists, Prod.mk.injEq, Path.join]
  · rw [keys_entriesOfRows]
    exact merges.rows_sublist.map _

/-- A list and a dict of crates with some fields declared on them. -/
def crates (declared : List Field) : Schema :=
  let crate := Field.embeddedWith "crate" ⟨"Crate", none, []⟩ declared []
  [("stack", .listOf "stack" .embeddedDocuments (some crate)),
    ("tagged", .dictOf "tagged" .plain (some crate))]

theorem merge_gives_new_paths_crates :
    let existing := crates [.string "label"]
    let incoming := crates [.string "label", .int "weight"] ++ [("count", .int "count")]
    EveryLevel DotFree incoming ∧
      ∃ added, existing.merge incoming false true = .ok (added, mergeEvent "" added) ∧
        (∀ path field, (path, field) ∈ added ↔ ∃ names new,
          NewAt existing incoming names new ∧ Path.dotted names = path ∧ new.copy = field) ∧
        (Mapping.keys added).Nodup ∧
        (Mapping.keys added).Sublist ((entryRows incoming).map Path.dotted) := by
  have everyLevel : EveryLevel DotFree
      (crates [.string "label", .int "weight"] ++ [("count", .int "count")]) := by
    have dotFree : DotFree
        [("label", (Field.string "label").copy), ("weight", (Field.int "weight").copy)] :=
      ⟨by decide, by decide⟩
    refine ⟨⟨by decide, by decide⟩, ⟨nofun, ?_⟩, ⟨nofun, ?_⟩, ⟨nofun, trivial⟩, trivial⟩
    all_goals
      refine ⟨?_, ⟨nofun, trivial⟩, ⟨nofun, trivial⟩, trivial⟩
      rintro nested ⟨⟩
      exact dotFree
  exact ⟨everyLevel, Schema.merge_gives_new_paths _ _ everyLevel⟩

/-- What is new in the list is reported, and nothing in the dict. -/
example : Except.map (fun merged => Mapping.keys merged.1)
    (Schema.merge (crates [.string "label"])
      (crates [.string "label", .int "weight"] ++ [("count", .int "count")]) false true) =
    .ok ["stack.weight", "count"] := by
  rfl

end SchemaTree
