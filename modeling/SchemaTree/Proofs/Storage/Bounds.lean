import SchemaTree.Field.Constructors
import SchemaTree.Proofs.Binary64.Number
import SchemaTree.Proofs.Storage.Settling

/-!
Bounded doubles in a store.  A field of doubles takes booleans, numbers and texts, and stores them
as doubles.  Its bounds are checked by what they exclude, so a double that is no number passes all
of them; every other accepted value is stored between the bounds.
-/

namespace SchemaTree

/-- Whether a value is no number by its own bits or by its text. -/
def Value.isNotANumber : Value → Bool
  | .float double => double.isNaN
  | .string text => Binary64.spellsNaN (Text.trim text.toList)
  | _ => false

theorem Value.isNaN_of_toFloat {value : Value} {double : Binary64}
    (isFloat : value.toFloat = .ok double) : double.isNaN = value.isNotANumber := by
  have ofInt_number {number : Int} (small : number.natAbs < twoTo 64) :
      (Binary64.ofInt number).isNaN = false :=
    Binary64.isNaN_of_isFinite (Binary64.isFinite_ofInt small)
  cases value with
  | bool truth =>
      cases isFloat
      cases truth <;> exact ofInt_number (by decide)
  | int number =>
      cases isFloat
      have low := number.le_toInt
      have high := number.toInt_lt
      have limit : twoTo 64 = 18446744073709551616 := rfl
      exact ofInt_number (by omega)
  | float other =>
      cases isFloat
      rfl
  | string text =>
      rw [toFloat, readFloat] at isFloat
      split at isFloat
      · contradiction
      · rename_i other isRead
        split_ifs at isFloat
        cases isFloat
        exact Binary64.isNaN_of_read? isRead
  | _ => contradiction

namespace Kind

/-- Whether a double is between bounds, each of which may be absent. -/
def InBounds (least greatest : Option Binary64) (double : Binary64) : Prop :=
  (∀ bound, least = some bound → bound.le double = true) ∧
    ∀ bound, greatest = some bound → double.le bound = true

variable {least greatest : Option Binary64} {double : Binary64}

theorem checkBounds_eq_ok_iff :
    checkBounds least greatest double = .ok () ↔
      (∀ bound, least = some bound → double.lt bound = false) ∧
        ∀ bound, greatest = some bound → bound.lt double = false := by
  have all_iff {bound : Option Binary64} {passes : Binary64 → Bool} :
      (bound.all fun limit => !passes limit) = true ↔
        ∀ limit, bound = some limit → passes limit = false := by
    cases bound <;> simp
  rw [checkBounds, bind_eq_ok_iff, ← all_iff, ← all_iff]
  constructor
  · rintro ⟨⟨⟩, isLeast, isGreatest⟩
    exact ⟨ensure_eq_ok_iff.mp isLeast, ensure_eq_ok_iff.mp isGreatest⟩
  · rintro ⟨isLeast, isGreatest⟩
    exact ⟨(), ensure_eq_ok_iff.mpr isLeast, ensure_eq_ok_iff.mpr isGreatest⟩

/-- A double that passes the check is between the bounds, unless it is no number. -/
theorem inBounds_iff (checked : checkBounds least greatest double = .ok ())
    (areNumbers : ∀ bound, least = some bound ∨ greatest = some bound → bound.isNaN = false) :
    InBounds least greatest double ↔
      double.isNaN = true → least = none ∧ greatest = none := by
  constructor
  · rintro ⟨isAbove, isBelow⟩ noNumber
    rw [Option.eq_none_iff_forall_ne_some, Option.eq_none_iff_forall_ne_some]
    exact ⟨fun bound isBound => (Binary64.not_le_of_isNaN noNumber).2 (isAbove bound isBound),
      fun bound isBound => (Binary64.not_le_of_isNaN noNumber).1 (isBelow bound isBound)⟩
  · intro unbounded
    obtain ⟨notBelow, notAbove⟩ := checkBounds_eq_ok_iff.mp checked
    cases isNaN : double.isNaN with
    | true =>
        obtain ⟨rfl, rfl⟩ := unbounded isNaN
        exact ⟨nofun, nofun⟩
    | false =>
        refine ⟨fun bound isBound => ?_, fun bound isBound => ?_⟩
        · have isNumber := areNumbers bound (.inl isBound)
          exact (Binary64.lt_eq_false_iff isNaN isNumber).mp (notBelow bound isBound)
        · have isNumber := areNumbers bound (.inr isBound)
          exact (Binary64.lt_eq_false_iff isNumber isNaN).mp (notAbove bound isBound)

end Kind

namespace Field

variable {attributes : Attributes} {least greatest : Option Binary64} {value : Value}

/-- A field of doubles stores every value that it accepts as a double.  That is between finite
bounds, unless there are any and the value is no number. -/
theorem stored_double_in_bounds_iff
    (finite : ∀ bound, least = some bound ∨ greatest = some bound → bound.isFinite = true)
    (present : value.isNull = false)
    (valid : Field.validate ⟨attributes, .float least greatest⟩ value = .ok ()) :
    ∃ double, Field.store value ⟨attributes, .float least greatest⟩ = .ok (.float double) ∧
      (Kind.InBounds least greatest double ↔
        value.isNotANumber = true → least = none ∧ greatest = none) := by
  rw [validate, validateAt, present, if_neg (by decide), check_scalar rfl,
    located_eq_ok_iff] at valid
  obtain ⟨double, isFloat, checked⟩ := bind_eq_ok_iff.mp valid
  refine ⟨double, ?_, ?_⟩
  · rw [store_scalar rfl present, Kind.storeScalar, isFloat]
    rfl
  · rw [← Value.isNaN_of_toFloat isFloat]
    exact Kind.inBounds_iff checked fun bound isBound =>
      Binary64.isNaN_of_isFinite (finite bound isBound)

end Field

/-- A share of the whole. -/
def share : Field :=
  .boundedFloat "share" (some (.ofInt 0)) (some (.ofInt 1))

theorem stored_double_in_bounds_half :
    (∀ bound, some (Binary64.ofInt 0) = some bound ∨ some (Binary64.ofInt 1) = some bound →
        bound.isFinite = true) ∧
      Field.validate share (.string " +5e-1") = .ok () ∧
        ∃ double, Field.store (.string " +5e-1") share = .ok (.float double) ∧
          Kind.InBounds (some (.ofInt 0)) (some (.ofInt 1)) double := by
  have finite : ∀ bound, some (Binary64.ofInt 0) = some bound ∨
      some (Binary64.ofInt 1) = some bound → bound.isFinite = true := by
    rintro _ (⟨⟨⟩⟩ | ⟨⟨⟩⟩) <;> decide
  have valid : Field.validate share (.string " +5e-1") = .ok () := by decide +kernel
  obtain ⟨double, isStored, inBounds⟩ := Field.stored_double_in_bounds_iff finite rfl valid
  exact ⟨finite, valid, double, isStored, inBounds.mpr nofun⟩

/-- What is no number is accepted by any bounds, whether it is a double or a text, and is stored
outside them. -/
theorem no_number_accepted_share :
    (Field.validate share (.float .nan) = .ok () ∧
        Field.store (.float .nan) share = .ok (.float .nan)) ∧
      (Field.validate share (.string "NaN") = .ok () ∧
        Field.store (.string "NaN") share = .ok (.float .nan)) ∧
      ¬(Binary64.ofInt 0).le .nan = true ∧ ¬Binary64.nan.le (.ofInt 1) = true :=
  ⟨⟨rfl, rfl⟩, ⟨rfl, rfl⟩, by decide, by decide⟩

end SchemaTree
