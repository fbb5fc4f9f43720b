import SchemaTree.Field.Constructors
import SchemaTree.Proofs.Binary64.Number
import SchemaTree.Proofs.Storage.Settling

/-!
Doubles in integer fields.  A stored double whose number is an integer is read as that integer, and
a double that is given is stored as its number without the fraction.  Both have 64 bits to do it
in: reading clamps what has more, and storing refuses it, together with the least integer.
-/

namespace SchemaTree

/-- An integer is clamped to itself exactly if it has 64 bits, and to the nearer end of their range
otherwise. -/
theorem ofIntClamp_spec (whole : ℤ) :
    ((Int64.ofIntClamp whole).toInt = whole ↔ -(twoTo 63 : ℤ) ≤ whole ∧ whole < twoTo 63) ∧
      (whole < -(twoTo 63 : ℤ) → Int64.ofIntClamp whole = .minValue) ∧
      ((twoTo 63 : ℤ) ≤ whole → Int64.ofIntClamp whole = .maxValue) := by
  have limit : (twoTo 63 : ℤ) = 9223372036854775808 := rfl
  have least : Int64.minValue.toInt = -9223372036854775808 := rfl
  have greatest : Int64.maxValue.toInt = 9223372036854775807 := rfl
  rw [limit]
  by_cases low : Int64.minValue.toInt ≤ whole
  · by_cases high : whole ≤ Int64.maxValue.toInt
    · exact ⟨iff_of_true (Int64.toInt_ofIntClamp low high) ⟨by omega, by omega⟩,
        fun below => absurd low (by omega), fun above => absurd high (by omega)⟩
    · have isGreatest : Int64.ofIntClamp whole = .maxValue := by
        rw [Int64.ofIntClamp, dif_pos low, dif_neg high]
      rw [isGreatest]
      exact ⟨iff_of_false (by omega) (by omega), fun below => absurd low (by omega), fun _ => rfl⟩
  · have isLeast : Int64.ofIntClamp whole = .minValue := by
      rw [Int64.ofIntClamp, dif_neg low]
    rw [isLeast]
    exact ⟨iff_of_false (by omega) (by omega), fun _ => rfl, fun above => absurd low (by omega)⟩

namespace Field

variable {attributes : Attributes} {kind : Kind} (isInteger : kind = .int ∨ kind = .frameNumber)
variable {double : Binary64}

include isInteger

/-- A stored double is read as an integer if its number is one, clamped to 64 bits. -/
theorem read_double_eq_ok_int_iff {number : Int64} :
    Field.read (.float double) ⟨attributes, kind⟩ = .ok (.int number) ↔
      double.isFinite = true ∧ ∃ whole : ℤ, double.toRat = whole ∧ number = .ofIntClamp whole := by
  have isRead : Field.read (.float double) ⟨attributes, kind⟩ = .ok
      (if double.isIntegral then .int (.ofIntClamp double.truncate) else .float double) := by
    rcases isInteger with rfl | rfl <;> rfl
  rw [isRead, Except.ok.injEq, Binary64.truncate_eq_towardZero]
  by_cases isIntegral : double.isIntegral = true
  · obtain ⟨finite, whole, isWhole⟩ := Binary64.isIntegral_iff.mp isIntegral
    rw [if_pos isIntegral, isWhole, towardZero_intCast, Value.int.injEq]
    constructor
    · rintro rfl
      exact ⟨finite, whole, rfl, rfl⟩
    · rintro ⟨_, other, same, rfl⟩
      rw [Int.cast_inj.mp same]
  · rw [if_neg isIntegral]
    refine iff_of_false nofun ?_
    rintro ⟨finite, whole, isWhole, _⟩
    exact isIntegral (Binary64.isIntegral_iff.mpr ⟨finite, whole, isWhole⟩)

/-- A double is stored as its number without the fraction, if that has 64 bits and is not the least
integer that does. -/
theorem store_double_eq_ok_iff {stored : Value} :
    Field.store (.float double) ⟨attributes, kind⟩ = .ok stored ↔
      double.isFinite = true ∧ ∃ number : Int64, number ≠ .minValue ∧
        number.toInt = towardZero double.toRat ∧ stored = .int number := by
  have isStored : Field.store (.float double) ⟨attributes, kind⟩ =
      located attributes.location ((Value.truncateFloat double).map Value.int) := by
    rcases isInteger with rfl | rfl <;> rfl
  rw [isStored, located_eq_ok_iff, map_eq_ok_iff, ← Binary64.truncate_eq_towardZero]
  have limit : twoTo 63 = 9223372036854775808 := rfl
  have least : Int64.minValue.toInt = -9223372036854775808 := rfl
  have magnitude := double.natAbs_truncate
  constructor
  · rintro ⟨number, isNumber, rfl⟩
    obtain ⟨finite, near, isTruncated⟩ := Value.truncateFloat_eq_ok_iff.mp isNumber
    refine ⟨finite, number, ?_, isTruncated.symm, rfl⟩
    rintro rfl
    omega
  · rintro ⟨finite, number, notLeast, isTruncated, rfl⟩
    refine ⟨number, Value.truncateFloat_eq_ok_iff.mpr ⟨finite, ?_, isTruncated.symm⟩, rfl⟩
    have notLow : number.toInt ≠ Int64.minValue.toInt := mt Int64.toInt_inj.mp notLeast
    have low := number.le_toInt
    have high := number.toInt_lt
    omega

/-- A stored double is read as an integer exactly if its number is one.  The integer is the number
exactly if that has 64 bits, and the nearer end of their range otherwise.  A double is stored
exactly if it is finite and its number without the fraction has 64 bits and is not the least integer
that does, and then as that integer. -/
theorem doubles_of_integer_field (attributes : Attributes) (double : Binary64) :
    ((∃ number, Field.read (.float double) ⟨attributes, kind⟩ = .ok (.int number)) ↔
        double.isFinite = true ∧ ∃ whole : ℤ, double.toRat = whole) ∧
      (∀ number, Field.read (.float double) ⟨attributes, kind⟩ = .ok (.int number) →
        ((number.toInt : ℚ) = double.toRat ↔
            -(twoTo 63 : ℚ) ≤ double.toRat ∧ double.toRat < (twoTo 63 : ℚ)) ∧
          (double.toRat < -(twoTo 63 : ℚ) → number = .minValue) ∧
          ((twoTo 63 : ℚ) ≤ double.toRat → number = .maxValue)) ∧
      ∀ stored, Field.store (.float double) ⟨attributes, kind⟩ = .ok stored ↔
        double.isFinite = true ∧ ∃ number : Int64, number ≠ .minValue ∧
          number.toInt = towardZero double.toRat ∧ stored = .int number := by
  refine ⟨⟨?_, ?_⟩, fun number isRead => ?_, fun stored => store_double_eq_ok_iff isInteger⟩
  · rintro ⟨number, isRead⟩
    obtain ⟨finite, whole, isWhole, _⟩ := (read_double_eq_ok_int_iff isInteger).mp isRead
    exact ⟨finite, whole, isWhole⟩
  · rintro ⟨finite, whole, isWhole⟩
    exact ⟨_, (read_double_eq_ok_int_iff isInteger).mpr ⟨finite, whole, isWhole, rfl⟩⟩
  · obtain ⟨_, whole, isWhole, rfl⟩ := (read_double_eq_ok_int_iff isInteger).mp isRead
    rw [isWhole]
    exact_mod_cast ofIntClamp_spec whole

end Field

def five : Binary64 := ⟨0x4014000000000000⟩

/-- Three and three quarters below zero. -/
def fraction : Binary64 := ⟨0xC00E000000000000⟩

theorem doubles_of_integer_field_frame :
    (Field.read (.float five) (.frameNumber "frame") = .ok (.int 5) ∧
        ((5 : Int64).toInt : ℚ) = five.toRat) ∧
      towardZero fraction.toRat = -3 ∧
        Field.store (.float fraction) (.frameNumber "frame") = .ok (.int (-3)) := by
  have isRead : Field.read (.float five) (.frameNumber "frame") = .ok (.int 5) := rfl
  have inRange : -(twoTo 63 : ℚ) ≤ five.toRat ∧ five.toRat < (twoTo 63 : ℚ) := by decide +kernel
  have isFraction : towardZero fraction.toRat = -3 := by decide +kernel
  obtain ⟨_, exact, _⟩ := Field.doubles_of_integer_field (.inr rfl) _ five
  obtain ⟨_, _, stores⟩ := Field.doubles_of_integer_field (.inr rfl) _ fraction
  exact ⟨⟨isRead, (exact 5 isRead).1.mpr inRange⟩, isFraction,
    (stores _).mpr ⟨rfl, -3, by decide, isFraction.symm, rfl⟩⟩

/-- Both ends of the range of 64 bits are missed: two to the 63rd is read as the integer before it,
and its opposite, which has 64 bits, is not stored. -/
theorem integers_missed_at_limits :
    let count := Field.int "count"
    let above : Binary64 := ⟨0x43E0000000000000⟩
    let least : Binary64 := ⟨0xC3E0000000000000⟩
    (Field.read (.float above) count = .ok (.int .maxValue) ∧ above.isFinite = true ∧
        (Int64.maxValue.toInt : ℚ) ≠ above.toRat) ∧
      Field.store (.float least) count = .error (.invalid (some "count") .intOverflow) ∧
        least.isFinite = true ∧ towardZero least.toRat = Int64.minValue.toInt := by
  refine ⟨⟨rfl, rfl, ?_⟩, rfl, rfl, ?_⟩ <;> decide +kernel

end SchemaTree
