import SchemaTree.Proofs.Binary64
import SchemaTree.Value.Cast

/-!
Whole parts of doubles.  Counted in steps of the smallest double, a finite double is a natural
number with a sign, and its whole part is a quotient of it; so truncation keeps the order of
doubles.  Integers of up to 53 bits are doubles exactly.
-/

namespace SchemaTree

namespace Binary64

/-! ## Steps of the smallest double -/

/-- How many steps of the smallest double the double of a magnitude is from zero. -/
def stepsOf (magnitude : Nat) : Nat :=
  if magnitude / twoTo 52 = 0 then magnitude % twoTo 52
  else (twoTo 52 + magnitude % twoTo 52) * twoTo (magnitude / twoTo 52 - 1)

theorem stepsOf_magnitude (x : Binary64) :
    stepsOf x.magnitude = x.significand * twoTo x.exponentStep := by
  unfold stepsOf significand exponentStep exponentField fraction
  split
  · rename_i subnormal
    rw [subnormal]
    exact (Nat.mul_one _).symm
  · rfl

theorem wholePart_eq (x : Binary64) : x.wholePart = stepsOf x.magnitude / twoTo 1074 := by
  rw [stepsOf_magnitude, wholePart]
  split
  · rename_i large
    have split : twoTo x.exponentStep = twoTo (x.exponentStep - 1074) * twoTo 1074 := by
      rw [← twoTo_add, Nat.sub_add_cancel large]
    rw [split, ← Nat.mul_assoc, Nat.mul_div_cancel _ (twoTo_pos 1074)]
  · rename_i small
    have split : twoTo 1074 = twoTo (1074 - x.exponentStep) * twoTo x.exponentStep := by
      rw [← twoTo_add, Nat.sub_add_cancel (by omega)]
    rw [split, Nat.mul_div_mul_right _ _ (twoTo_pos _)]

theorem twoTo_le {first second : Nat} (ordered : first ≤ second) : twoTo first ≤ twoTo second :=
  Nat.pow_le_pow_right (by decide) ordered

theorem twoTo_succ (exponent : Nat) : twoTo (exponent + 1) = twoTo exponent * 2 :=
  twoTo_add exponent 1

/-- A double has fewer steps than the first one of the next exponent. -/
theorem stepsOf_lt (magnitude : Nat) :
    stepsOf magnitude < twoTo 52 * twoTo (magnitude / twoTo 52) := by
  have fraction : magnitude % twoTo 52 < twoTo 52 := Nat.mod_lt _ (twoTo_pos 52)
  unfold stepsOf
  split
  · rename_i subnormal
    rw [subnormal]
    exact Nat.lt_of_lt_of_eq fraction (Nat.mul_one _).symm
  · rename_i normal
    obtain ⟨exponent, isNext⟩ := Nat.exists_eq_succ_of_ne_zero normal
    rw [isNext, Nat.succ_sub_one, Nat.succ_eq_add_one, twoTo_succ exponent,
      Nat.mul_comm (twoTo exponent), ← Nat.mul_assoc]
    exact Nat.mul_lt_mul_of_pos_right (by omega) (twoTo_pos exponent)

theorem le_stepsOf {magnitude : Nat} (normal : magnitude / twoTo 52 ≠ 0) :
    twoTo 52 * twoTo (magnitude / twoTo 52 - 1) ≤ stepsOf magnitude := by
  rw [stepsOf, if_neg normal]
  exact Nat.mul_le_mul_right _ (Nat.le_add_right _ _)

theorem stepsOf_le_stepsOf {small large : Nat} (ordered : small ≤ large) :
    stepsOf small ≤ stepsOf large := by
  have exponents : small / twoTo 52 ≤ large / twoTo 52 := Nat.div_le_div_right ordered
  rcases Nat.eq_or_lt_of_le exponents with same | less
  · have fractions : small % twoTo 52 ≤ large % twoTo 52 := by
      have smallParts := Nat.div_add_mod small (twoTo 52)
      have largeParts := Nat.div_add_mod large (twoTo 52)
      rw [same] at smallParts
      omega
    unfold stepsOf
    rw [same]
    split
    · exact fractions
    · exact Nat.mul_le_mul_right _ (Nat.add_le_add_left fractions _)
  · calc stepsOf small
        ≤ twoTo 52 * twoTo (small / twoTo 52) := Nat.le_of_lt (stepsOf_lt small)
      _ ≤ twoTo 52 * twoTo (large / twoTo 52 - 1) :=
          Nat.mul_le_mul_left _ (twoTo_le (by omega))
      _ ≤ stepsOf large := le_stepsOf (Nat.ne_zero_of_lt less)

/-! ## The order of doubles -/

theorem le_iff {x y : Binary64} :
    x.le y = true ↔ x.isNaN = false ∧ y.isNaN = false ∧ x.orderKey ≤ y.orderKey := by
  simp [le, and_assoc]

theorem le_trans {x y z : Binary64} (first : x.le y = true) (second : y.le z = true) :
    x.le z = true := by
  rw [le_iff] at first second ⊢
  exact ⟨first.1, second.2.1, Int.le_trans first.2.2 second.2.2⟩

theorem wholePart_le_wholePart {x y : Binary64} (ordered : x.magnitude ≤ y.magnitude) :
    x.wholePart ≤ y.wholePart := by
  rw [wholePart_eq, wholePart_eq]
  exact Nat.div_le_div_right (stepsOf_le_stepsOf ordered)

/-- Truncation keeps the order of doubles. -/
theorem truncate_le_truncate {x y : Binary64} (ordered : x.le y = true) :
    x.truncate ≤ y.truncate := by
  have keys : x.orderKey ≤ y.orderKey := le_iff.mp ordered |>.2.2
  unfold orderKey at keys
  unfold truncate
  split at keys <;> split at keys
  · rename_i xNegative yNegative
    have wholes : y.wholePart ≤ x.wholePart := wholePart_le_wholePart (by omega)
    rw [if_pos xNegative, if_pos yNegative]
    omega
  · rename_i xNegative yPositive
    rw [if_pos xNegative, if_neg yPositive]
    omega
  · rename_i xPositive yNegative
    -- Only the two zeros are ordered against their signs.
    have wholes : x.wholePart ≤ y.wholePart := wholePart_le_wholePart (by omega)
    have zero : y.wholePart = 0 := by
      have none : stepsOf 0 = 0 := rfl
      rw [wholePart_eq, show y.magnitude = 0 by omega, none, Nat.zero_div]
    rw [if_neg xPositive, if_pos yNegative]
    omega
  · rename_i xPositive yPositive
    have wholes : x.wholePart ≤ y.wholePart := wholePart_le_wholePart (by omega)
    rw [if_neg xPositive, if_neg yPositive]
    omega

/-! ## Integers as doubles -/

theorem nearestMagnitude_le (numerator denominator : Nat) :
    nearestMagnitude numerator denominator ≤ infinityMagnitude := by
  unfold nearestMagnitude
  split
  · exact Nat.zero_le _
  · exact Nat.min_le_right _ _

theorem nearestMagnitude_lt (numerator denominator : Nat) :
    nearestMagnitude numerator denominator < twoTo 63 :=
  Nat.lt_of_le_of_lt (nearestMagnitude_le numerator denominator) (by decide)

theorem negative_ofMagnitude {magnitude : Nat} (negative : Bool) (small : magnitude < twoTo 63) :
    (ofMagnitude negative magnitude).negative = negative := by
  have limit : twoTo 63 = 9223372036854775808 := rfl
  rw [limit] at small
  cases negative
  · rw [Binary64.negative, ofMagnitude, if_neg (by decide), UInt64.toNat_ofNat', limit,
      decide_eq_false_iff_not]
    omega
  · rw [Binary64.negative, ofMagnitude, if_pos rfl, UInt64.toNat_ofNat', limit, decide_eq_true_eq]
    omega

theorem magnitude_ofInt (value : Int) :
    (ofInt value).magnitude = nearestMagnitude value.natAbs 1 :=
  magnitude_ofMagnitude _ (nearestMagnitude_lt _ _)

theorem negative_ofInt (value : Int) : (ofInt value).negative = decide (value < 0) :=
  negative_ofMagnitude _ (nearestMagnitude_lt _ _)

/-- The double of an integer that is not positive is not above zero. -/
theorem orderKey_ofInt_nonpos {value : Int} (notPositive : value ≤ 0) :
    (ofInt value).orderKey ≤ 0 := by
  rw [orderKey, negative_ofInt, magnitude_ofInt]
  split
  · omega
  · rename_i notNegative
    rw [decide_eq_true_eq] at notNegative
    obtain rfl : value = 0 := by omega
    decide

/-- An integer whose double is one or more is positive. -/
theorem one_le_of_le_ofInt {value : Int} (ordered : (ofInt 1).le (ofInt value) = true) :
    1 ≤ value := by
  have one : (ofInt 1).orderKey = 4607182418800017408 := by decide
  have keys := (le_iff.mp ordered).2.2
  by_cases notPositive : value ≤ 0
  · have := orderKey_ofInt_nonpos notPositive
    omega
  · omega

section Exact

variable {value : Nat} (positive : value ≠ 0) (short : value.log2 ≤ 52)

include positive short

/-- An integer of up to 53 bits is its own significand once its leading bit is moved into place. -/
theorem significand_bounds :
    twoTo 52 ≤ value * twoTo (52 - value.log2) ∧ value * twoTo (52 - value.log2) < twoTo 53 := by
  have least : twoTo value.log2 ≤ value := Nat.log2_self_le positive
  have lower := Nat.mul_le_mul_right (twoTo (52 - value.log2)) least
  have upper := Nat.mul_lt_mul_of_pos_right (lt_twoTo_log2 value) (twoTo_pos (52 - value.log2))
  rw [← twoTo_add] at lower upper
  rw [show value.log2 + (52 - value.log2) = 52 by omega] at lower
  rw [show value.log2 + 1 + (52 - value.log2) = 53 by omega] at upper
  exact ⟨lower, upper⟩

theorem nearestMagnitude_exact :
    nearestMagnitude value 1 =
      (value.log2 + 1022) * twoTo 52 + value * twoTo (52 - value.log2) := by
  have exponent_eq : max (leadingExponent value 1 - 52) (-1074) = (value.log2 : Int) - 52 := by
    rw [leadingExponent_one positive]
    omega
  have up : (-((value.log2 : Int) - 52)).toNat = 52 - value.log2 := by omega
  have down : ((value.log2 : Int) - 52).toNat = 0 := by omega
  have steps : ((value.log2 : Int) - 52 + 1074).toNat = value.log2 + 1022 := by omega
  have exact : roundDiv (value * twoTo (52 - value.log2)) (1 * twoTo 0) =
      value * twoTo (52 - value.log2) := by
    rw [roundDiv, show 1 * twoTo 0 = 1 from rfl, Nat.mod_one, Nat.div_one]
    rfl
  have bounded := (significand_bounds positive short).2
  simp only [nearestMagnitude, if_neg positive, exponent_eq, scaleDown, up, down, steps, exact]
  apply Nat.min_eq_left
  have limit : infinityMagnitude = 2047 * twoTo 52 := rfl
  have top : twoTo 53 = 2 * twoTo 52 := rfl
  have scaled : (value.log2 + 1022) * twoTo 52 ≤ 1074 * twoTo 52 :=
    Nat.mul_le_mul_right _ (by omega)
  omega

/-- The leading bit of the significand is carried into the exponent, and the fields are read off. -/
theorem stepsOf_exact : stepsOf (nearestMagnitude value 1) = value * twoTo 1074 := by
  have magnitude := nearestMagnitude_exact positive short
  have bounds := significand_bounds positive short
  generalize isSignificand : value * twoTo (52 - value.log2) = significand at magnitude bounds
  have unit : twoTo 52 = 4503599627370496 := rfl
  have top : twoTo 53 = 9007199254740992 := rfl
  have field : nearestMagnitude value 1 / twoTo 52 = value.log2 + 1023 := by
    rw [magnitude, unit]
    omega
  have fraction : twoTo 52 + nearestMagnitude value 1 % twoTo 52 = significand := by
    rw [magnitude, unit]
    omega
  rw [stepsOf, field, fraction, if_neg (by omega), ← isSignificand, Nat.mul_assoc, ← twoTo_add,
    show 52 - value.log2 + (value.log2 + 1023 - 1) = 1074 by omega]

end Exact

theorem wholePart_ofInt {value : Int} (small : value.natAbs ≤ twoTo 53) :
    (ofInt value).wholePart = value.natAbs := by
  have steps : stepsOf (nearestMagnitude value.natAbs 1) = value.natAbs * twoTo 1074 := by
    generalize value.natAbs = number at small
    rcases Nat.eq_or_lt_of_le small with rfl | less
    · decide +kernel
    · by_cases isZero : number = 0
      · subst isZero
        decide +kernel
      · have short := (Nat.log2_lt isZero).mpr less
        exact stepsOf_exact isZero (by omega)
  rw [wholePart_eq, magnitude_ofInt, steps, Nat.mul_div_cancel _ (twoTo_pos 1074)]

/-- An integer of up to 53 bits is a double exactly. -/
theorem truncate_ofInt {value : Int} (small : value.natAbs ≤ twoTo 53) :
    (ofInt value).truncate = value := by
  rw [truncate, negative_ofInt, wholePart_ofInt small]
  split
  · rename_i negative
    rw [decide_eq_true_eq] at negative
    omega
  · rename_i notNegative
    rw [decide_eq_true_eq] at notNegative
    omega

theorem one_le_truncate {x : Binary64} (least : (ofInt 1).le x = true) : 1 ≤ x.truncate := by
  have one : (ofInt 1).truncate = 1 := truncate_ofInt (by decide)
  exact one ▸ truncate_le_truncate least

theorem natAbs_truncate (x : Binary64) : x.truncate.natAbs = x.wholePart := by
  unfold truncate
  split <;> omega

theorem truncate_eq_wholePart {x : Binary64} (positive : 1 ≤ x.truncate) :
    x.truncate = x.wholePart := by
  have magnitude := x.natAbs_truncate
  omega

end Binary64

/-- A double is cast to the integer that it is truncated to, if it is finite and closer to zero than
`2 ^ 63`. -/
theorem Value.truncateFloat_eq_ok_iff {double : Binary64} {number : Int64} :
    truncateFloat double = .ok number ↔
      double.isFinite = true ∧ double.wholePart < twoTo 63 ∧ double.truncate = number.toInt := by
  have limit : twoTo 63 = 9223372036854775808 := rfl
  unfold truncateFloat
  by_cases finite : double.isFinite = true
  · rw [if_pos finite]
    by_cases near : double.wholePart < twoTo 63
    · have inRange : (Int64.ofInt double.truncate).toInt = double.truncate := by
        apply Int64.toInt_ofInt_of_le <;>
        · unfold Binary64.truncate
          split <;> omega
      rw [if_pos near]
      constructor
      · intro isOk
        cases isOk
        exact ⟨finite, near, inRange.symm⟩
      · rintro ⟨_, _, same⟩
        rw [same, Int64.ofInt_toInt]
    · rw [if_neg near]
      constructor
      · intro isOk
        contradiction
      · rintro ⟨_, isNear, _⟩
        exact absurd isNear near
  · rw [if_neg finite]
    constructor
    · intro isOk
      contradiction
    · rintro ⟨isFinite, _⟩
      exact absurd isFinite finite

end SchemaTree
