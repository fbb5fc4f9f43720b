import SchemaTree.Path

/-!
Dotted paths and rows of names.  Every path is joined from its segments, and names without dots
are read off the path that joins them.
-/

namespace SchemaTree

theorem dot_notMem_of_isFieldName {name : String} (isName : isFieldName name = true) :
    '.' ∉ name.toList := by
  unfold isFieldName at isName
  cases chars : name.toList with
  | nil => exact List.not_mem_nil
  | cons first rest =>
      simp only [chars, ne_eq, Bool.and_eq_true, decide_eq_true_eq, List.all_eq_true] at isName
      rintro isDot
      rcases List.mem_cons.mp isDot with same | inRest
      · exact isName.1.2 same.symm
      · exact isName.2 '.' inRest rfl

@[simp]
theorem isPrivate_child (path name : String) :
    isPrivate (Path.child path name) = isPrivate path := by
  simp only [isPrivate, Path.child, String.toList_append]
  cases path.toList <;> rfl

namespace Path

theorem splitDots_eq_splitOn (text : List Char) : splitDots text = text.splitOn '.' := by
  induction text with
  | nil => rw [splitDots, List.splitOn_nil]
  | cons char rest inductionHypothesis =>
      rw [splitDots, inductionHypothesis, List.splitOn, List.splitOn,
        List.splitOnP_cons_eq_if_modifyHead]
      by_cases isDot : char = '.'
      · simp [isDot]
      · cases parts : List.splitOnP (· == '.') rest with
        | nil => exact absurd parts (List.splitOnP_ne_nil _ _)
        | cons part others => simp [isDot]

theorem dot_notMem_of_mem_splitDots {text part : List Char} (isPart : part ∈ splitDots text) :
    '.' ∉ part := by
  induction text generalizing part with
  | nil =>
      rw [List.mem_singleton.mp isPart]
      exact List.not_mem_nil
  | cons char rest inductionHypothesis =>
      rw [splitDots] at isPart
      by_cases isDot : char = '.'
      · rw [if_pos isDot, List.mem_cons] at isPart
        rcases isPart with rfl | inRest
        · exact List.not_mem_nil
        · exact inductionHypothesis inRest
      · rw [if_neg isDot] at isPart
        cases parts : splitDots rest with
        | nil =>
            rw [parts] at isPart
            rw [List.mem_singleton.mp isPart, List.mem_singleton]
            exact Ne.symm isDot
        | cons first others =>
            rw [parts] at isPart inductionHypothesis
            rcases List.mem_cons.mp isPart with rfl | inOthers
            · have notFirst := inductionHypothesis (.head others)
              simp [notFirst, Ne.symm isDot]
            · exact inductionHypothesis (.tail first inOthers)

theorem dot_notMem_of_mem_segments {path name : String} (isSegment : name ∈ segments path) :
    '.' ∉ name.toList := by
  obtain ⟨part, isPart, rfl⟩ := List.mem_map.mp isSegment
  simpa using dot_notMem_of_mem_splitDots isPart

/-- The path of a row of names. -/
def dotted (names : List String) : String :=
  ".".intercalate names

@[simp]
theorem dotted_singleton (name : String) : dotted [name] = name :=
  String.intercalate_singleton

theorem dotted_cons (name : String) {names : List String} (nonempty : names ≠ []) :
    dotted (name :: names) = child name (dotted names) := by
  rw [dotted, String.intercalate_cons_of_ne_nil nonempty]
  rfl

/-- A name below a path may be counted among the names or with the path. -/
theorem join_dotted_cons (path : Option String) (name : String) {names : List String}
    (nonempty : names ≠ []) :
    join path (dotted (name :: names)) = join (some (join path name)) (dotted names) := by
  rw [dotted_cons name nonempty]
  cases path with
  | none => rfl
  | some path => simp only [join, child, String.append_assoc]

@[simp]
theorem dotted_segments (path : String) : dotted (segments path) = path := by
  have unchanged : String.toList ∘ String.ofList = id := funext fun text => by simp
  rw [← String.toList_inj, dotted, String.toList_intercalate, segments, List.map_map, unchanged,
    List.map_id, splitDots_eq_splitOn]
  exact List.intercalate_splitOn '.'

/-- Names without dots are the segments of the path that joins them. -/
theorem segments_dotted {names : List String} (nonempty : names ≠ [])
    (dotFree : ∀ name ∈ names, '.' ∉ name.toList) : segments (dotted names) = names := by
  have unchanged : String.ofList ∘ String.toList = id := funext fun text => by simp
  have split : List.splitOn '.' (['.'].intercalate (names.map String.toList)) =
      names.map String.toList :=
    List.splitOn_intercalate '.' (by simpa using dotFree) (by simpa using nonempty)
  rw [segments, dotted, String.toList_intercalate, splitDots_eq_splitOn]
  exact (congrArg (List.map String.ofList) split).trans
    (by rw [List.map_map, unchanged, List.map_id])

theorem segments_ne_nil (path : String) : segments path ≠ [] := by
  rw [segments, splitDots_eq_splitOn, ne_eq, List.map_eq_nil_iff]
  exact List.splitOn_ne_nil _ _

theorem segments_child {name : String} (dotFree : '.' ∉ name.toList) (path : String) :
    segments (child name path) = name :: segments path := by
  have areDotFree : ∀ segment ∈ name :: segments path, '.' ∉ segment.toList :=
    List.forall_mem_cons.mpr ⟨dotFree, fun _ => dot_notMem_of_mem_segments⟩
  rw [← segments_dotted (List.cons_ne_nil _ _) areDotFree, dotted_cons name (segments_ne_nil path),
    dotted_segments]

theorem child_injective (path : String) : Function.Injective (child path) := by
  intro first second same
  simpa [child] using same

theorem child_ne (path name : String) : child path name ≠ path := by
  intro same
  have dot : 0 < ".".length := by decide
  have sameLength := congrArg String.length same
  rw [child, String.length_append, String.length_append] at sameLength
  omega

/-- The path of a row of names, one name after the other. -/
theorem foldl_child_eq_dotted (name : String) (names : List String) :
    names.foldl child name = dotted (name :: names) := by
  induction names generalizing name with
  | nil => simp
  | cons next rest inductionHypothesis =>
      rw [List.foldl_cons, inductionHypothesis, dotted_cons name (List.cons_ne_nil next rest)]
      cases rest with
      | nil => simp
      | cons other later =>
          simp [dotted_cons, child, String.append_assoc]

theorem foldl_child_of_segments {path name : String} {rest : List String}
    (isPath : segments path = name :: rest) : rest.foldl child name = path := by
  rw [foldl_child_eq_dotted, ← isPath, dotted_segments]

end Path

end SchemaTree
