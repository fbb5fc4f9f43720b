import Mathlib.Data.List.Basic
import Mathlib.Data.List.Induction
import SchemaTree.Embedded
import SchemaTree.Field.Constructors

/-!
Runs of calls that make a view.  A selection stands from the first one on, and takes in what was
excluded before; as long as there is none, only the last exclusion stands.  So an exclusion hides
its names, but it can show others again that an exclusion before it hid.
-/

namespace SchemaTree

namespace View

/-- A call that makes a view of a view. -/
inductive Call where
  | select (names : List String)
  | exclude (names : List String)
  | withField (field : Field)

def perform (view : View) : Call → View
  | .select names => view.select names
  | .exclude names => view.exclude names
  | .withField field => view.withField field

/-- The view that a run of calls makes of the one that shows all. -/
def ofCalls (calls : List Call) : View :=
  calls.foldl perform all

def Call.selects : Call → Bool
  | .select _ => true
  | .exclude _ | .withField _ => false

def Call.excluded? : Call → Option (List String)
  | .exclude names => some names
  | .select _ | .withField _ => none

/-- The names that a run excludes apart from its selection: those of its last exclusion, as long as
nothing has been selected. -/
def standingExclusion (calls : List Call) : Option (List String) :=
  if calls.any Call.selects then none else (calls.filterMap Call.excluded?).getLast?

/-- The view with no names hidden but those that are not selected. -/
def unexcluded (view : View) : View :=
  { view with excluded := none }

/-! ## What stands after a run -/

theorem selected_perform (view : View) (call : Call) :
    (view.perform call).selected.isSome = (view.selected.isSome || call.selects) := by
  cases call with
  | select names =>
      cases excluded : view.excluded <;> simp [perform, select, Call.selects, excluded]
  | exclude names =>
      cases selected : view.selected <;> simp [perform, exclude, Call.selects, selected]
  | withField field => exact (Bool.or_false _).symm

/-- Whether a view does not both select and exclude. -/
def Exclusive (view : View) : Prop :=
  view.selected = none ∨ view.excluded = none

/-- A selection takes in the exclusion, and is where later exclusions go. -/
theorem excluded_perform {view : View} (exclusive : view.Exclusive) (call : Call) :
    (view.perform call).excluded =
      if view.selected.isSome || call.selects then none
      else call.excluded?.or view.excluded := by
  cases call with
  | select names =>
      cases excluded : view.excluded <;> simp [perform, select, Call.selects, excluded]
  | exclude names =>
      rcases exclusive with selected | excluded
      · simp [perform, exclude, Call.selects, Call.excluded?, selected]
      · cases selected : view.selected <;>
          simp [perform, exclude, Call.selects, Call.excluded?, selected, excluded]
  | withField field =>
      rcases exclusive with selected | excluded
      · simp [perform, withField, Call.selects, Call.excluded?, selected]
      · simp [perform, withField, Call.excluded?, excluded]

theorem standingExclusion_snoc (calls : List Call) (call : Call) :
    standingExclusion (calls ++ [call]) =
      if calls.any Call.selects || call.selects then none
      else call.excluded?.or (standingExclusion calls) := by
  cases selects : calls.any Call.selects with
  | true => simp [standingExclusion, selects]
  | false => cases call <;> simp [standingExclusion, selects, Call.selects, Call.excluded?]

/-- What the selection and the exclusion of a view have of a run of calls. -/
structure Stands (calls : List Call) (view : View) : Prop where
  selected : view.selected.isSome = calls.any Call.selects
  excluded : view.excluded = standingExclusion calls

theorem Stands.exclusive {calls : List Call} {view : View} (stands : Stands calls view) :
    view.Exclusive := by
  cases selects : calls.any Call.selects with
  | true => exact .inr (by rw [stands.excluded, standingExclusion, if_pos selects])
  | false =>
      have isNone := Option.isSome_eq_false_iff.mp (stands.selected.trans selects)
      exact .inl (Option.isNone_iff_eq_none.mp isNone)

theorem Stands.perform {calls : List Call} {view : View} (stands : Stands calls view)
    (call : Call) : Stands (calls ++ [call]) (view.perform call) := by
  constructor
  · rw [selected_perform, stands.selected, List.any_append, List.any_cons, List.any_nil,
      Bool.or_false]
  · rw [excluded_perform stands.exclusive, standingExclusion_snoc, stands.selected,
      stands.excluded]

theorem stands_ofCalls (calls : List Call) : Stands calls (ofCalls calls) := by
  induction calls using List.reverseRecOn with
  | nil => exact ⟨rfl, rfl⟩
  | append_singleton calls call inductionHypothesis =>
      rw [ofCalls, List.foldl_append]
      exact inductionHypothesis.perform call

/-! ## What an exclusion hides -/

theorem admits_exclude {view : View} (exclusive : view.Exclusive) (names : List String)
    (name : String) :
    (view.exclude names).admits name = (view.unexcluded.admits name && !names.contains name) := by
  rcases exclusive with selected | excluded
  · simp [exclude, unexcluded, admits, selected]
  · cases selected : view.selected with
    | none => simp [exclude, unexcluded, admits, selected]
    | some kept =>
        rw [Bool.eq_iff_iff]
        simp [exclude, unexcluded, admits, selected, excluded]

theorem admits_eq (view : View) (name : String) :
    view.admits name =
      (view.unexcluded.admits name && !(view.excluded.any fun names => names.contains name)) := by
  cases excluded : view.excluded <;> simp [admits, unexcluded, excluded]

theorem virtualFields_exclude (view : View) (names : List String) :
    (view.exclude names).virtualFields = view.virtualFields := by
  unfold exclude
  split <;> rfl

end View

namespace Embedded

/-- The names shown under a view are those of the overlay that it admits. -/
theorem namesIn_eq (nested : Embedded) (view : View) (showPrivate : Bool) :
    nested.namesIn (some view) showPrivate =
      (Mapping.keys (Mapping.extend nested.fields view.virtualFields)).filter
        (isVisible (some view) showPrivate) := by
  rw [namesIn, visibleIn, Mapping.keys, Mapping.keys, List.filter_map]
  rfl

/-- A view with the same fields that admits fewer names shows fewer, in the same order. -/
theorem namesIn_of_admits (nested : Embedded) {view narrower : View} {keep : String → Bool}
    (sameFields : narrower.virtualFields = view.virtualFields)
    (admits : ∀ name, narrower.admits name = (view.admits name && keep name))
    (showPrivate : Bool) :
    nested.namesIn (some narrower) showPrivate =
      (nested.namesIn (some view) showPrivate).filter keep := by
  rw [namesIn_eq, namesIn_eq, sameFields, List.filter_filter]
  refine List.filter_congr fun name _ => ?_
  simp only [isVisible, admits, ← Bool.and_assoc]
  rw [Bool.and_comm, Bool.and_assoc]

/-- An exclusion after a run hides its names.  Of the others it shows all that were shown, and
those again that an exclusion hid which it replaces; so it only hides exactly if all that the
standing exclusion of the run hides is hidden again. -/
theorem names_of_exclusion (nested : Embedded) (calls : List View.Call) (names : List String)
    (showPrivate : Bool) :
    let view := View.ofCalls calls
    let selected := nested.namesIn (some view.unexcluded) showPrivate
    nested.namesIn (some view) showPrivate =
        (selected.filter fun name =>
          !(View.standingExclusion calls).any fun hidden => hidden.contains name) ∧
      nested.namesIn (some (view.exclude names)) showPrivate =
        (selected.filter fun name => !names.contains name) ∧
      (nested.namesIn (some (view.exclude names)) showPrivate =
          ((nested.namesIn (some view) showPrivate).filter fun name => !names.contains name) ↔
        ∀ hidden, View.standingExclusion calls = some hidden →
          ∀ name ∈ selected, name ∈ hidden → name ∈ names) := by
  intro view selected
  have stands := View.stands_ofCalls calls
  have before : nested.namesIn (some view) showPrivate = selected.filter fun name =>
      !view.excluded.any fun hidden => hidden.contains name :=
    have sameFields : view.virtualFields = view.unexcluded.virtualFields := rfl
    nested.namesIn_of_admits sameFields view.admits_eq showPrivate
  have after : nested.namesIn (some (view.exclude names)) showPrivate =
      selected.filter fun name => !names.contains name :=
    have sameFields : (view.exclude names).virtualFields = view.unexcluded.virtualFields :=
      view.virtualFields_exclude names
    nested.namesIn_of_admits sameFields (View.admits_exclude stands.exclusive names) showPrivate
  rw [stands.excluded] at before
  refine ⟨before, after, ?_⟩
  rw [after, before, List.filter_comm, eq_comm, List.filter_eq_self]
  cases View.standingExclusion calls with
  | none => simp
  | some hidden =>
      simp only [List.mem_filter, Option.any_some, Option.some.injEq, forall_eq']
      grind

def detection : Embedded :=
  .ofType ⟨"Detection", none,
    [("label", .string "label"), ("confidence", .float "confidence"), ("area", .float "area")]⟩

/-- A selection keeps what was excluded before it. -/
theorem names_of_exclusion_detection :
    let view := View.ofCalls [.exclude ["label"], .select ["area", "confidence", "label"]]
    detection.namesIn (some (view.exclude ["confidence"])) false =
      (detection.namesIn (some view) false).filter fun name => !(["confidence"].contains name) :=
  (names_of_exclusion detection _ ["confidence"] false).2.2.mpr nofun

/-- The second of two exclusions shows what the first one hid. -/
theorem excluded_name_shown_again :
    let view := View.ofCalls [.exclude ["label"]]
    detection.namesIn (some view) false = ["confidence", "area"] ∧
      detection.namesIn (some (view.exclude ["confidence"])) false = ["label", "area"] ∧
      (detection.namesIn (some view) false).filter
        (fun name => !(["confidence"].contains name)) = ["area"] := by
  decide

end Embedded

end SchemaTree
