import Mathlib.Data.List.Forall2
import Mathlib.Data.Set.List
import SchemaTree.Traverse

/-!
Functions that may fail, applied along a list: all succeed exactly if each does.  Lists whose items
all have something to go with them are taken apart with that.
-/

namespace SchemaTree

theorem bind_eq_ok_iff {α β ε : Type} {outcome : Except ε α} {next : α → Except ε β}
    {result : β} :
    outcome.bind next = .ok result ↔ ∃ part, outcome = .ok part ∧ next part = .ok result := by
  constructor
  · intro bound
    cases outcome with
    | error error => contradiction
    | ok part => exact ⟨part, rfl, bound⟩
  · rintro ⟨part, rfl, continued⟩
    exact continued

theorem map_eq_ok_iff {α β ε : Type} {outcome : Except ε α} {f : α → β} {result : β} :
    outcome.map f = .ok result ↔ ∃ part, outcome = .ok part ∧ f part = result := by
  constructor
  · intro mapped
    cases outcome with
    | error error => contradiction
    | ok part => exact ⟨part, rfl, Except.ok.inj mapped⟩
  · rintro ⟨part, rfl, rfl⟩
    rfl

theorem bind_eq_error_iff {α β ε : Type} {outcome : Except ε α} {next : α → Except ε β}
    {error : ε} :
    outcome.bind next = .error error ↔
      outcome = .error error ∨ ∃ part, outcome = .ok part ∧ next part = .error error := by
  cases outcome <;> simp [Except.bind]

/-- A check on the way is passed exactly by what it expects. -/
theorem expect_eq_ok_iff {α β ε : Type} {found expected : α} [Decidable (found ≠ expected)]
    {fault : ε} {next : PUnit → Except ε β} {result : β} :
    (if found ≠ expected then throw fault >>= next else next ()) = .ok result ↔
      found = expected ∧ next () = .ok result := by
  by_cases same : found = expected
  · rw [if_neg (not_not.mpr same)]
    exact (and_iff_right same).symm
  · rw [if_pos same]
    constructor
    · intro isOk
      contradiction
    · rintro ⟨isSame, _⟩
      contradiction

/-! ## Checks along a list -/

section Checks

variable {α β ε : Type} {items : List α}

theorem checkEach_map (check : β → Except ε Unit) (f : α → β) (items : List α) :
    checkEach check (items.map f) = checkEach (check ∘ f) items := by
  induction items with
  | nil => rfl
  | cons item rest inductionHypothesis =>
      rw [List.map_cons, checkEach, checkEach, inductionHypothesis]
      rfl

/-- What a check skips may be left out of the list. -/
theorem checkEach_skip (skips : α → Bool) (check : α → Except ε Unit) (items : List α) :
    checkEach (fun item => if skips item then .ok () else check item) items =
      checkEach check (items.filter fun item => !skips item) := by
  induction items with
  | nil => rfl
  | cons item rest inductionHypothesis =>
      cases skipped : skips item with
      | true => simpa [checkEach, skipped, Except.bind] using inductionHypothesis
      | false => simp [checkEach, skipped, inductionHypothesis]

/-- A check along a list fails at the first item that it fails at. -/
theorem checkEach_eq_error_iff {check : α → Except ε Unit} {error : ε} :
    checkEach check items = .error error ↔
      ∃ before item after, items = before ++ item :: after ∧
        (∀ other ∈ before, check other = .ok ()) ∧ check item = .error error := by
  induction items with
  | nil => simp [checkEach]
  | cons head tail inductionHypothesis =>
      rw [checkEach, bind_eq_error_iff, inductionHypothesis]
      constructor
      · rintro (isError | ⟨_, passed, before, item, after, rfl, earlier, isError⟩)
        · exact ⟨[], head, tail, rfl, by simp, isError⟩
        · exact ⟨head :: before, item, after, rfl, by simpa [passed] using earlier, isError⟩
      · rintro ⟨before, item, after, same, earlier, isError⟩
        cases before with
        | nil =>
            cases same
            exact .inl isError
        | cons first before =>
            cases same
            rw [List.forall_mem_cons] at earlier
            exact .inr ⟨(), earlier.1, before, item, after, rfl, earlier.2, isError⟩

end Checks

/-! ## Results along a list -/

theorem mapEach_eq_ok_iff {α β ε : Type} {f : α → Except ε β} {items : List α}
    {results : List β} :
    mapEach f items = .ok results ↔
      List.Forall₂ (fun item result => f item = .ok result) items results := by
  induction items generalizing results with
  | nil =>
      rw [mapEach, List.forall₂_nil_left_iff, Except.ok.injEq, eq_comm]
  | cons head tail inductionHypothesis =>
      rw [mapEach, bind_eq_ok_iff, List.forall₂_cons_left_iff]
      constructor
      · rintro ⟨first, applied, rest⟩
        obtain ⟨others, restApplied, rfl⟩ := map_eq_ok_iff.mp rest
        exact ⟨first, others, applied, inductionHypothesis.mp restApplied, rfl⟩
      · rintro ⟨first, others, applied, restApplied, rfl⟩
        exact ⟨first, applied, map_eq_ok_iff.mpr
          ⟨others, inductionHypothesis.mpr restApplied, rfl⟩⟩

theorem exists_of_mapEach {α β ε : Type} {f : α → Except ε β} {items : List α} {results : List β}
    (mapped : mapEach f items = .ok results) {result : β} (isResult : result ∈ results) :
    ∃ item ∈ items, f item = .ok result := by
  have related := mapEach_eq_ok_iff.mp mapped
  clear mapped
  induction related with
  | nil => contradiction
  | @cons item _ _ _ applied _ inductionHypothesis =>
      rcases List.mem_cons.mp isResult with rfl | isOther
      · exact ⟨item, List.mem_cons_self, applied⟩
      · obtain ⟨other, isItem, isApplied⟩ := inductionHypothesis isOther
        exact ⟨other, List.mem_cons_of_mem item isItem, isApplied⟩

/-- A function that leaves every item as it is leaves the list as it is. -/
theorem mapEach_eq_self {α ε : Type} {f : α → Except ε α} {items : List α}
    (each : ∀ item ∈ items, f item = .ok item) : mapEach f items = .ok items :=
  mapEach_eq_ok_iff.mpr (List.forall₂_same.mpr each)

theorem mapEach_map {α β γ ε : Type} {f : β → Except ε γ} {before : α → β} {after : α → γ}
    {rows : List α} (each : ∀ row ∈ rows, f (before row) = .ok (after row)) :
    mapEach f (rows.map before) = .ok (rows.map after) := by
  rw [mapEach_eq_ok_iff, List.forall₂_map_left_iff, List.forall₂_map_right_iff, List.forall₂_same]
  exact each

theorem exists_map_eq {α β : Type} {f : α → β} {items : List β}
    (each : ∀ item ∈ items, ∃ row, f row = item) : ∃ rows : List α, rows.map f = items := by
  have inRange : items ∈ Set.range (List.map f) := by
    rw [Set.range_list_map]
    exact each
  exact inRange

theorem exists_forall₂ {α β : Type} {related : α → β → Prop} {items : List α}
    (each : ∀ item ∈ items, ∃ other, related item other) :
    ∃ others, List.Forall₂ related items others := by
  induction items with
  | nil => exact ⟨[], .nil⟩
  | cons item rest inductionHypothesis =>
      rw [List.forall_mem_cons] at each
      obtain ⟨other, isRelated⟩ := each.1
      obtain ⟨others, areRelated⟩ := inductionHypothesis each.2
      exact ⟨other :: others, .cons isRelated areRelated⟩

theorem forall₂_imp_of_mem {α β : Type} {related other : α → β → Prop} {items : List α}
    {others : List β} (each : List.Forall₂ related items others)
    (implies : ∀ item ∈ items, ∀ result, related item result → other item result) :
    List.Forall₂ other items others := by
  have eachOfItems := (List.forall₂_and_left items others).mpr ⟨fun _ => id, each⟩
  exact eachOfItems.imp fun item result ⟨isItem, isRelated⟩ => implies item isItem result isRelated

/-- The first items that are looked for go together, if the same items are looked for. -/
theorem find?_forall₂ {α β : Type} {related : α → β → Prop} {items : List α} {others : List β}
    {isItem : α → Bool} {isOther : β → Bool}
    (same : ∀ item other, related item other → isItem item = isOther other)
    (each : List.Forall₂ related items others) :
    items.find? isItem = none ∧ others.find? isOther = none ∨
      ∃ item other, items.find? isItem = some item ∧ others.find? isOther = some other ∧
        related item other := by
  induction each with
  | nil => exact .inl ⟨rfl, rfl⟩
  | @cons item other _ _ isRelated _ inductionHypothesis =>
      rw [List.find?_cons, List.find?_cons, same item other isRelated]
      cases isOther other with
      | true => exact .inr ⟨item, other, rfl, rfl, isRelated⟩
      | false => exact inductionHypothesis

@[simp]
theorem flatten_cons_singletons {α β : Type} (f : α → β) (items : List α) :
    ([] :: items.map fun item => [f item]).flatten = items.map f := by
  rw [List.flatten_cons, List.nil_append, ← List.flatMap_def, List.map_eq_flatMap]

end SchemaTree
