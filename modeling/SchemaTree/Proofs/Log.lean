import Mathlib.Data.List.Nodup
import SchemaTree.Log
import SchemaTree.Proofs.Json.Token

/-!
Log lines as JSON texts.  Whatever the event and its fields are, a line is a single object that
reads back as the texts it was made of, and there is no line break in it but the last.
-/

namespace SchemaTree

open Json Json.Token

namespace Log

variable {text : String} {rest : List Char} {tokens : List Token}
variable {entry : String × String} {entries : List (String × String)}

/-! ## Escapes -/

theorem isControl_iff {char : Char} :
    isControl char = true ↔ char.toNat < 32 ∨ 127 ≤ char.toNat ∧ char.toNat < 160 := by
  simp [isControl]

/-- An escaped character reads as the character. -/
theorem takeUnits?_escapeChar (char : Char) (rest : List Char) :
    takeUnits? (escapeChar char ++ rest) =
      (takeUnits? rest).map fun taken => (char.toNat :: taken.1, taken.2) := by
  unfold escapeChar
  split_ifs with isQuote isSlash isBreak isReturn isTab isControlled
  · subst isQuote
    exact takeUnits?_escaped rfl rest
  · subst isSlash
    exact takeUnits?_escaped rfl rest
  · subst isBreak
    exact takeUnits?_escaped rfl rest
  · subst isReturn
    exact takeUnits?_escaped rfl rest
  · subst isTab
    exact takeUnits?_escaped rfl rest
  · have small : char.toNat < 256 := by
      have code := isControl_iff.mp isControlled
      omega
    simp only [List.cons_append, List.nil_append, takeUnits?, unit?_digits small, Option.bind_some]
  · have isAllowed : 32 ≤ char.toNat := by
      have code := isControl_iff.not.mp isControlled
      omega
    exact takeUnits?_unescaped isAllowed isQuote isSlash rest

theorem takeUnits?_flatMap_escapeChar (chars rest : List Char) :
    takeUnits? (chars.flatMap escapeChar ++ '"' :: rest) = some (chars.map Char.toNat, rest) := by
  induction chars with
  | nil => rfl
  | cons char later inductionHypothesis =>
      rw [List.flatMap_cons, List.append_assoc, takeUnits?_escapeChar, inductionHypothesis]
      rfl

/-- No escape has a line break in it. -/
theorem newline_notMem_escapeChar (char : Char) : '\n' ∉ escapeChar char := by
  unfold escapeChar
  split_ifs with _ _ isBreak _ _ isControlled
  all_goals try decide
  · have notBreak : ∀ value, value < 16 → '\n' ≠ Text.Hex.digit value := by decide
    have code := isControl_iff.mp isControlled
    have high := notBreak (char.toNat / 16) (by omega)
    have low := notBreak (char.toNat % 16) (by omega)
    simp [high, low]
  · simpa [eq_comm] using isBreak

/-! ## Texts and members -/

/-- A quoted text is a token by itself. -/
theorem scans_quoted (text : String) (scans : Scans rest tokens) :
    Scans (quoted text ++ rest) (.string (some text) :: tokens) := by
  have isTaken : take? (quoted text ++ rest) = some (.string (some text), rest) := by
    simp [take?, quoted, takeUnits?_flatMap_escapeChar, ofUnits?_map_toNat]
  have split : quoted text ++ rest = '"' :: (text.toList.flatMap escapeChar ++ '"' :: rest) := by
    simp [quoted]
  rw [split] at isTaken ⊢
  refine scans.taken rfl rfl isTaken ?_
  simp only [List.length_append, List.length_cons]
  omega

theorem newline_notMem_quoted (text : String) : '\n' ∉ quoted text := by
  simp [quoted, newline_notMem_escapeChar]

/-- The tokens of a member. -/
def memberTokens (entry : String × String) : List Token :=
  [.comma, .string (some entry.1), .colon, .string (some entry.2)]

theorem scans_members (entries : List (String × String)) (scans : Scans rest tokens) :
    Scans (entries.flatMap member ++ rest) (entries.flatMap memberTokens ++ tokens) := by
  induction entries with
  | nil => exact scans
  | cons entry later inductionHypothesis =>
      have colon := (scans_quoted entry.2 inductionHypothesis).mark ':' rfl rfl
      have comma := (scans_quoted entry.1 colon).mark ',' rfl rfl
      simpa [member, memberTokens] using comma

theorem newline_notMem_member (entry : String × String) : '\n' ∉ member entry := by
  simp [member, newline_notMem_quoted]

/-! ## Objects of texts -/

/-- The outline of an object whose members are texts. -/
def outline (entries : List (String × String)) : Outline :=
  .object (entries.map fun entry => (some entry.1, .string (some entry.2)))

/-- Members after the first continue an open object. -/
theorem run_members (entries : List (String × String)) (members : List (Option String × Outline))
    (key : Option String) (value : Outline) :
    Outline.run (.closed value [.object members key])
        (entries.flatMap memberTokens ++ [.closeObject]) =
      some (.closed (.object (((key, value) :: members).reverse ++
        entries.map fun entry => (some entry.1, .string (some entry.2)))) []) := by
  induction entries generalizing members key value with
  | nil => simp [Outline.run, Outline.step]
  | cons entry later inductionHypothesis =>
      simp [memberTokens, Outline.run, Outline.step, Outline.start, inductionHypothesis]

/-- An object of a first member and others. -/
def object (first : String × String) (others : List (String × String)) : List Char :=
  '\x7b' :: quoted first.1 ++ ':' :: quoted first.2 ++ others.flatMap member ++ ['\x7d']

theorem ofText?_object (first : String × String) (others : List (String × String)) :
    Outline.ofText? (String.ofList (object first others)) = some (outline (first :: others)) := by
  have closing : Scans ['\x7d'] [.closeObject] := Scans.nil.mark '\x7d' rfl rfl
  have value := scans_quoted first.2 (scans_members others closing)
  have key := scans_quoted first.1 (value.mark ':' rfl rfl)
  have isScanned := key.mark '\x7b' rfl rfl
  have text : (String.ofList (object first others)).toList = '\x7b' :: (quoted first.1 ++
      ':' :: (quoted first.2 ++ (others.flatMap member ++ ['\x7d']))) := by
    simp [object]
  rw [Outline.ofText?, scan_eq_some (text ▸ isScanned), Option.bind_some]
  simp [Outline.run, Outline.step, Outline.start, run_members, outline]

theorem newline_notMem_object (first : String × String) (others : List (String × String)) :
    '\n' ∉ object first others := by
  simp [object, newline_notMem_quoted, newline_notMem_member]

theorem line_eq (severity : Severity) (event : String) (fields : List (String × String)) :
    line severity event fields = String.ofList
      (object ("event", event) (("severity", severity.name) :: sortFields fields)) ++ "\n" := by
  have newline : "\n" = String.ofList ['\n'] := rfl
  rw [newline, ← String.ofList_append, line]
  simp [object]

/-! ## Sorting -/

/-- Fields in the order of their keys, where fields of one key keep their order. -/
structure SortedFrom (fields sorted : List (String × String)) : Prop where
  perm : sorted.Perm fields
  inOrder : sorted.Pairwise fun first second => first.1 ≤ second.1
  isStable : ∀ key, sorted.filter (fun entry => entry.1 = key) =
    fields.filter fun entry => entry.1 = key

theorem keys_trans (first second third : String × String)
    (isBefore : decide (first.1 ≤ second.1) = true)
    (isBetween : decide (second.1 ≤ third.1) = true) : decide (first.1 ≤ third.1) = true :=
  decide_eq_true (String.le_trans (of_decide_eq_true isBefore) (of_decide_eq_true isBetween))

theorem keys_total (first second : String × String) :
    (decide (first.1 ≤ second.1) || decide (second.1 ≤ first.1)) = true := by
  simpa using String.le_total first.1 second.1

theorem pairwise_sortFields (fields : List (String × String)) :
    (sortFields fields).Pairwise fun first second => first.1 ≤ second.1 :=
  (List.pairwise_mergeSort keys_trans keys_total fields).imp of_decide_eq_true

theorem sortedFrom_sortFields (fields : List (String × String)) :
    SortedFrom fields (sortFields fields) := by
  refine ⟨List.mergeSort_perm fields _, pairwise_sortFields fields, fun key => ?_⟩
  have sameKey : (fields.filter fun entry => entry.1 = key).Pairwise fun first second =>
      decide (first.1 ≤ second.1) = true := by
    apply List.pairwise_of_forall_mem_list
    intro first isFirst second isSecond
    have isKey := of_decide_eq_true (List.mem_filter.mp isFirst).2
    have isSame := of_decide_eq_true (List.mem_filter.mp isSecond).2
    exact decide_eq_true (isKey.trans isSame.symm ▸ String.le_refl _)
  have isPart := List.sublist_mergeSort keys_trans keys_total sameKey List.filter_sublist
  have isKept := isPart.filter fun entry => decide (entry.1 = key)
  simp only [List.filter_filter, Bool.and_self] at isKept
  exact (isKept.eq_of_length ((List.mergeSort_perm fields _).filter _).length_eq.symm).symm

/-- Fields of distinct keys are sorted in one way only. -/
theorem sortFields_eq_of_perm {fields others : List (String × String)}
    (isPermuted : fields.Perm others) (distinct : (fields.map Prod.fst).Nodup) :
    sortFields fields = sortFields others := by
  have sorted := List.mergeSort_perm fields fun first second => first.1 ≤ second.1
  have sortedOthers := List.mergeSort_perm others fun first second => first.1 ≤ second.1
  refine List.Perm.eq_of_pairwise ?_ (pairwise_sortFields fields) (pairwise_sortFields others)
    ((sorted.trans isPermuted).trans sortedOthers.symm)
  intro first second isFirst isSecond isBefore isAfter
  have isField := isPermuted.mem_iff.mpr (sortedOthers.mem_iff.mp isSecond)
  exact List.inj_on_of_nodup_map distinct (sorted.mem_iff.mp isFirst) isField
    (String.le_antisymm isBefore isAfter)

/-- A line is one object and a line break.  The object reads back as the event, its severity and its
fields sorted by key, all with their own texts; and fields of distinct keys may be given in any
order. -/
theorem line_reads_back (severity : Severity) (event : String) (fields : List (String × String)) :
    ∃ body sorted, line severity event fields = body ++ "\n" ∧ '\n' ∉ body.toList ∧
      SortedFrom fields sorted ∧
      Outline.ofText? body =
        some (outline (("event", event) :: ("severity", severity.name) :: sorted)) ∧
      ∀ others, fields.Perm others → (fields.map Prod.fst).Nodup →
        line severity event others = line severity event fields := by
  refine ⟨_, _, line_eq severity event fields, ?_, sortedFrom_sortFields fields,
    ofText?_object _ _, fun others isPermuted distinct => ?_⟩
  · rw [String.toList_ofList]
    exact newline_notMem_object _ _
  · rw [line, line, sortFields_eq_of_perm isPermuted distinct]

theorem line_reads_back_fruit :
    let fields := [("pear", "a \"b\"\n"), ("apple", "\\")]
    let others := [("apple", "\\"), ("pear", "a \"b\"\n")]
    fields.Perm others ∧ (fields.map Prod.fst).Nodup ∧
      (∃ body sorted, line .info "FRUIT" fields = body ++ "\n" ∧ '\n' ∉ body.toList ∧
        SortedFrom fields sorted ∧
        Outline.ofText? body =
          some (outline (("event", "FRUIT") :: ("severity", "INFO") :: sorted))) ∧
      line .info "FRUIT" others = line .info "FRUIT" fields := by
  intro fields others
  have isPermuted : fields.Perm others := .swap ..
  have distinct : (fields.map Prod.fst).Nodup := by decide
  obtain ⟨body, sorted, isLine, noBreak, isSorted, isRead, sameLine⟩ :=
    line_reads_back .info "FRUIT" fields
  exact ⟨isPermuted, distinct, ⟨body, sorted, isLine, noBreak, isSorted, isRead⟩,
    sameLine others isPermuted distinct⟩

example : line .info "FRUIT" [("b", "\n"), ("a", "1"), ("b", "")] =
    "\x7b\"event\":\"FRUIT\",\"severity\":\"INFO\",\"a\":\"1\",\"b\":\"\\n\",\"b\":\"\"\x7d\n" := by
  cbv

end Log

end SchemaTree
