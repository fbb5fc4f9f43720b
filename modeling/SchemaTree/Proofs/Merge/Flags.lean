import SchemaTree.Field.Constructors
import SchemaTree.Proofs.Merge.NewPaths

/-!
What the flags of a merge decide.  Checking changes whether a merge succeeds and not what it gives:
it succeeds exactly if all fields of a name fit at every pair of open levels.  Without recursion a
merge gives what the recursive one gives at the top level.
-/

namespace SchemaTree

section Flags

variable {validate recursive : Bool} {existing incoming : List (String × Field)}
variable {outerLevel innerLevel : List (String × Field)} {names : List String} {name : String}
variable {left right : Field} {outer inner : Embedded} {rows : List (List String × Field)}

/-- Whether the incoming field fits the existing one wherever both of two open levels have a
name. -/
def LevelsFit (existing incoming : List (String × Field)) : Prop :=
  ∀ names outerLevel innerLevel, OpenAt existing incoming names outerLevel innerLevel →
    ∀ name left right, Mapping.lookup outerLevel name = some left →
      Mapping.lookup innerLevel name = some right → right.Fits left

/-! ## Merges with and without checks -/

/-- What a merge with checks gives, it gives without them. -/
theorem Merges.unchecked (merges : Merges validate recursive existing incoming rows) :
    Merges false recursive existing incoming rows := by
  induction merges with
  | nil existing => exact .nil existing
  | missing isMissing _ inductionHypothesis => exact .missing isMissing inductionHypothesis
  | pass isFound _ isApart _ inductionHypothesis =>
      refine .pass isFound nofun (fun isRecursive => ?_) inductionHypothesis
      exact .of_fits nofun (isApart isRecursive).unrelated
  | enter isRecursive isFound _ counterparts _ _ _ nestedHypothesis inductionHypothesis =>
      exact .enter isRecursive isFound nofun counterparts nofun nestedHypothesis
        inductionHypothesis

/-- Fields of one name fit if they were checked, and their documents were merged if they were
entered. -/
theorem Merges.of_lookup (merges : Merges validate recursive existing incoming rows)
    (isLeft : Mapping.lookup existing name = some left)
    (isRight : Mapping.lookup incoming name = some right) :
    (validate = true → right.Fits left) ∧
      ∀ outer inner, recursive = true → Counterparts left right outer inner →
        ∃ nested, Merges validate recursive outer.fields inner.fields nested := by
  induction merges with
  | nil => contradiction
  | missing isMissing _ inductionHypothesis =>
      rcases Mapping.of_lookup_cons isRight with ⟨rfl, rfl⟩ | isLater
      · rw [isMissing] at isLeft
        contradiction
      · exact inductionHypothesis isLeft isLater
  | pass isFound fits isApart _ inductionHypothesis =>
      rcases Mapping.of_lookup_cons isRight with ⟨rfl, rfl⟩ | isLater
      · obtain rfl := Option.some.inj (isFound.symm.trans isLeft)
        refine ⟨fits, fun outer inner isRecursive counterparts => ?_⟩
        exact absurd counterparts ((isApart isRecursive).unrelated outer inner)
      · exact inductionHypothesis isLeft isLater
  | enter _ isFound fits counterparts _ nested _ _ inductionHypothesis =>
      rcases Mapping.of_lookup_cons isRight with ⟨rfl, rfl⟩ | isLater
      · obtain rfl := Option.some.inj (isFound.symm.trans isLeft)
        refine ⟨fits, fun _ _ _ others => ?_⟩
        obtain ⟨rfl, rfl⟩ := counterparts.unique others
        exact ⟨_, nested⟩
      · exact inductionHypothesis isLeft isLater

theorem Merges.of_openAt (merges : Merges validate true existing incoming rows)
    (isOpen : OpenAt existing incoming names outerLevel innerLevel) :
    ∃ nested, Merges validate true outerLevel innerLevel nested := by
  induction isOpen generalizing rows with
  | here => exact ⟨rows, merges⟩
  | enter isLeft isRight counterparts _ inductionHypothesis =>
      obtain ⟨nested, merged⟩ := (merges.of_lookup isLeft isRight).2 _ _ rfl counterparts
      exact inductionHypothesis merged

theorem Merges.levelsFit (merges : Merges true true existing incoming rows) :
    LevelsFit existing incoming := by
  intro names outerLevel innerLevel isOpen name left right isLeft isRight
  obtain ⟨nested, merged⟩ := merges.of_openAt isOpen
  exact (merged.of_lookup isLeft isRight).1 rfl

/-! ## Levels that fit -/

theorem LevelsFit.below (fit : LevelsFit existing incoming)
    (isLeft : Mapping.lookup existing name = some left)
    (isRight : Mapping.lookup incoming name = some right)
    (counterparts : Counterparts left right outer inner) :
    LevelsFit outer.fields inner.fields :=
  fun names _ _ isOpen => fit (name :: names) _ _ (.enter isLeft isRight counterparts isOpen)

theorem LevelsFit.tail {rest : List (String × Field)} (fresh : name ∉ Mapping.keys rest)
    (fit : LevelsFit existing ((name, right) :: rest)) : LevelsFit existing rest := by
  have later : ∀ {other : String} {field : Field}, Mapping.lookup rest other = some field →
      Mapping.lookup ((name, right) :: rest) other = some field :=
    fun isFound => (Mapping.lookup_cons_iff fresh).mpr (.inr isFound)
  intro names outerLevel innerLevel isOpen other first second isFirst isSecond
  cases isOpen with
  | here => exact fit [] _ _ (.here _ _) other first second isFirst (later isSecond)
  | enter isLeft isRight counterparts isOpen =>
      exact fit.below isLeft (later isRight) counterparts _ _ _ isOpen _ _ _ isFirst isSecond

/-- No check fails on levels that fit. -/
theorem passable_of_levelsFit : Passable true fun existing incoming =>
    EveryLevel DotFree incoming ∧ LevelsFit existing incoming := by
  have isHead {rest : List (String × Field)} {name : String} {field : Field}
      (everyLevel : EveryLevel DotFree ((name, field) :: rest)) :
      Mapping.lookup ((name, field) :: rest) name = some field :=
    (Mapping.lookup_cons_iff everyLevel.1.fresh).mpr (.inl ⟨rfl, rfl⟩)
  constructor
  case tail =>
    rintro existing rest ⟨name, field⟩ ⟨everyLevel, fit⟩
    exact ⟨everyLevel.tail everyLevel.1.tail, fit.tail everyLevel.1.fresh⟩
  case fits =>
    rintro existing rest name left right ⟨everyLevel, fit⟩ isLeft -
    exact fit [] _ _ (.here _ _) name left right isLeft (isHead everyLevel)
  case below =>
    rintro existing rest name left right outer inner ⟨everyLevel, fit⟩ isLeft counterparts
    exact ⟨everyLevel.below List.mem_cons_self counterparts.right,
      fit.below isLeft (isHead everyLevel) counterparts⟩

/-! ## Merges with and without recursion -/

/-- A merge without recursion gives the rows of one name that it gives with recursion. -/
theorem Merges.shallow (merges : Merges validate true existing incoming rows) :
    Merges validate false existing incoming (rows.filter fun row => row.1.length = 1) := by
  induction merges with
  | nil existing => exact .nil existing
  | missing isMissing _ inductionHypothesis => exact .missing isMissing inductionHypothesis
  | pass isFound fits _ _ inductionHypothesis => exact .pass isFound fits nofun inductionHypothesis
  | @enter existing rest name field incoming outer inner below rows _ isFound fits _ _ nested _ _
      inductionHypothesis =>
      have noneShort : (below.map fun row => (name :: row.1, row.2)).filter
          (fun row => row.1.length = 1) = [] := by
        rw [List.filter_eq_nil_iff, List.forall_mem_map]
        intro row isRow
        simpa using nested.names_ne_nil row isRow
      rw [List.filter_append, noneShort, List.nil_append]
      exact .pass isFound fits nofun inductionHypothesis

/-- The rows of one name give the paths of one segment. -/
theorem Merges.entriesOfRows_filter (merges : Merges validate recursive existing incoming rows)
    (everyLevel : EveryLevel DotFree incoming) :
    entriesOfRows none (rows.filter fun row => row.1.length = 1) =
      (entriesOfRows none rows).filter fun entry => (Path.segments entry.1).length = 1 := by
  rw [entriesOfRows, entriesOfRows, List.filter_map]
  congr 1
  refine List.filter_congr fun row isRow => ?_
  simp only [Function.comp, Path.join, merges.segments_dotted everyLevel isRow]

end Flags

/-- Without checks a merge never fails.  With checks and recursion it succeeds if and only if two
fields of a name pass the check wherever both of two open levels have that name, and then it gives
what it gives without checks.  Where it succeeds with recursion it succeeds without, and gives the
entries of single segments in the same order. -/
theorem Schema.merge_flags_agree (existing incoming : Schema)
    (everyLevel : EveryLevel DotFree incoming) :
    (∀ recursive, ∃ added,
        existing.merge incoming false recursive = .ok (added, mergeEvent "" added)) ∧
      ((∃ merged, existing.merge incoming true true = .ok merged) ↔
        ∀ names outer inner, OpenAt existing incoming names outer inner → ∀ name left right,
          Mapping.lookup outer name = some left → Mapping.lookup inner name = some right →
            checkFit (Path.dotted (names ++ [name])) right left = .ok ()) ∧
      (∀ merged, existing.merge incoming true true = .ok merged →
        existing.merge incoming false true = .ok merged) ∧
      ∀ validate added event, existing.merge incoming validate true = .ok (added, event) →
        let single := List.filter (fun entry => (Path.segments entry.1).length = 1) added
        existing.merge incoming validate false = .ok (single, mergeEvent "" single) := by
  refine ⟨fun recursive => ?_, ?_, fun merged isMerged => ?_, ?_⟩
  · obtain ⟨rows, merges⟩ := exists_merges_unchecked recursive existing incoming
    exact ⟨_, (merge_eq_ok_iff everyLevel).mpr ⟨rows, merges, rfl⟩⟩
  · simp only [checkFit_eq_ok_iff_fits]
    constructor
    · rintro ⟨merged, isMerged⟩
      obtain ⟨rows, merges, _⟩ := (merge_eq_ok_iff everyLevel).mp isMerged
      exact merges.levelsFit
    · intro fit
      obtain ⟨rows, merges⟩ :=
        passable_of_levelsFit.exists_merges true existing incoming ⟨everyLevel, fit⟩
      exact ⟨_, (merge_eq_ok_iff everyLevel).mpr ⟨rows, merges, rfl⟩⟩
  · obtain ⟨rows, merges, rfl⟩ := (merge_eq_ok_iff everyLevel).mp isMerged
    exact (merge_eq_ok_iff everyLevel).mpr ⟨rows, merges.unchecked, rfl⟩
  · intro validate added event isMerged
    obtain ⟨rows, merges, same⟩ := (merge_eq_ok_iff everyLevel).mp isMerged
    cases same
    refine (merge_eq_ok_iff everyLevel).mpr ⟨_, merges.shallow, ?_⟩
    rw [merges.entriesOfRows_filter everyLevel]

/-- A lot with one document of a type and some fields declared on it. -/
def lot (type : DocumentType) (declared : List Field) : Schema :=
  [("parked", Field.embeddedWith "parked" type declared [])]

theorem merge_flags_agree_lots :
    let vehicle : DocumentType := ⟨"Vehicle", none, []⟩
    let existing := lot vehicle [.string "plate"]
    let incoming := lot ⟨"Truck", some vehicle, []⟩ [.string "plate", .int "axles"] ++
      [("full", .boolean "full")]
    EveryLevel DotFree incoming ∧
      (∀ names outer inner, OpenAt existing incoming names outer inner → ∀ name left right,
        Mapping.lookup outer name = some left → Mapping.lookup inner name = some right →
          checkFit (Path.dotted (names ++ [name])) right left = .ok ()) ∧
      Except.map (fun merged => Mapping.keys merged.1) (existing.merge incoming true true) =
        .ok ["parked.axles", "full"] ∧
      Except.map (fun merged => Mapping.keys merged.1) (existing.merge incoming true false) =
        .ok ["full"] := by
  intro vehicle existing incoming
  have everyLevel : EveryLevel DotFree incoming := by
    refine ⟨⟨by decide, by decide⟩, ⟨?_, ⟨nofun, trivial⟩, ⟨nofun, trivial⟩, trivial⟩,
      ⟨nofun, trivial⟩, trivial⟩
    rintro nested ⟨⟩
    exact ⟨by decide, by decide⟩
  obtain ⟨_, ⟨fit, _⟩, _, shallow⟩ := Schema.merge_flags_agree existing incoming everyLevel
  refine ⟨everyLevel, fit ⟨_, rfl⟩, rfl, ?_⟩
  rw [shallow true _ _ rfl]
  rfl

end SchemaTree
