import SchemaTree.Binary64.Rounding

/-!
Rounding keeps integers of 64 bits finite.
-/

namespace SchemaTree.Binary64

theorem isNaN_of_isFinite {x : Binary64} (finite : x.isFinite = true) : x.isNaN = false := by
  rw [isFinite, decide_eq_true_eq] at finite
  rw [isNaN, decide_eq_false_iff_not, Nat.not_lt]
  exact Nat.le_of_lt finite

theorem magnitude_ofMagnitude {magnitude : Nat} (negative : Bool) (small : magnitude < twoTo 63) :
    (ofMagnitude negative magnitude).magnitude = magnitude := by
  have limit : twoTo 63 = 9223372036854775808 := rfl
  unfold ofMagnitude Binary64.magnitude
  rw [limit] at small ⊢
  cases negative
  · rw [if_neg (by decide), UInt64.toNat_ofNat']
    omega
  · rw [if_pos rfl, UInt64.toNat_ofNat']
    omega

theorem roundDiv_le (numerator denominator : Nat) :
    roundDiv numerator denominator ≤ numerator / denominator + 1 := by
  unfold roundDiv
  dsimp only
  split
  · omega
  · split <;> omega

theorem lt_twoTo_log2 (value : Nat) : value < twoTo (value.log2 + 1) :=
  Nat.lt_log2_self

theorem leadingExponent_one {numerator : Nat} (positive : numerator ≠ 0) :
    leadingExponent numerator 1 = numerator.log2 := by
  have least : twoTo numerator.log2 ≤ numerator := Nat.log2_self_le positive
  have unit : Nat.log2 1 = 0 := by decide
  have estimate : (numerator.log2 : Int) - ((0 : Nat) : Int) = numerator.log2 := Int.sub_zero _
  have down : (-(numerator.log2 : Int)).toNat = 0 := by omega
  have up : ((numerator.log2 : Int)).toNat = numerator.log2 := by omega
  have none : twoTo 0 = 1 := rfl
  simp only [leadingExponent, unit, estimate, scaleDown, down, up, none, Nat.one_mul, Nat.mul_one,
    if_pos least]

/-- Steps of an exponent and a significand with a carry stay below the infinities. -/
theorem min_lt_infinity {steps quotient rounded : Nat} (low : steps ≤ 1085)
    (short : quotient < 9007199254740992) (near : rounded ≤ quotient + 1) :
    min (steps * 4503599627370496 + rounded) (2047 * 4503599627370496) <
      2047 * 4503599627370496 := by
  have scaled := Nat.mul_le_mul_right 4503599627370496 low
  omega

theorem nearestMagnitude_one_lt {numerator : Nat} (small : numerator < twoTo 64) :
    nearestMagnitude numerator 1 < infinityMagnitude := by
  have limit : infinityMagnitude = 2047 * twoTo 52 := rfl
  have unit : twoTo 52 = 4503599627370496 := rfl
  unfold nearestMagnitude
  split
  · decide
  · rename_i positive
    have short : numerator.log2 < 64 := (Nat.log2_lt positive).mpr small
    have above := lt_twoTo_log2 numerator
    have exponent_eq : max (leadingExponent numerator 1 - 52) (-1074) =
        (numerator.log2 : Int) - 52 := by
      rw [leadingExponent_one positive]
      omega
    -- The significand has at most 53 bits, and rounding may carry into one more.
    have significand : (numerator * twoTo (-((numerator.log2 : Int) - 52)).toNat) /
        (1 * twoTo ((numerator.log2 : Int) - 52).toNat) < twoTo 53 := by
      by_cases wide : 52 ≤ numerator.log2
      · have down : (-((numerator.log2 : Int) - 52)).toNat = 0 := by omega
        have up : ((numerator.log2 : Int) - 52).toNat = numerator.log2 - 52 := by omega
        rw [down, up, Nat.one_mul, Nat.div_lt_iff_lt_mul (twoTo_pos _), ← twoTo_add,
          show 53 + (numerator.log2 - 52) = numerator.log2 + 1 by omega]
        exact (Nat.mul_one numerator).symm ▸ above
      · have down : (-((numerator.log2 : Int) - 52)).toNat = 52 - numerator.log2 := by omega
        have up : ((numerator.log2 : Int) - 52).toNat = 0 := by omega
        have scaled : numerator * twoTo (52 - numerator.log2) <
            twoTo (numerator.log2 + 1) * twoTo (52 - numerator.log2) :=
          Nat.mul_lt_mul_of_pos_right above (twoTo_pos _)
        rw [← twoTo_add, show numerator.log2 + 1 + (52 - numerator.log2) = 53 by omega] at scaled
        rw [down, up, show twoTo 0 = 1 from rfl, Nat.mul_one, Nat.div_one]
        exact scaled
    have rounded := roundDiv_le (numerator * twoTo (-((numerator.log2 : Int) - 52)).toNat)
      (1 * twoTo ((numerator.log2 : Int) - 52).toNat)
    have top : twoTo 53 = 9007199254740992 := rfl
    rw [top] at significand
    have steps : ((numerator.log2 : Int) - 52 + 1074).toNat ≤ 1085 := by omega
    simp only [exponent_eq, scaleDown, limit, unit]
    exact min_lt_infinity steps significand rounded

/-- An integer of 64 bits, with or without a sign, is within the range of doubles. -/
theorem isFinite_ofInt {value : Int} (small : value.natAbs < twoTo 64) :
    (ofInt value).isFinite = true := by
  have below := nearestMagnitude_one_lt small
  have inRange : nearestMagnitude value.natAbs 1 < twoTo 63 :=
    Nat.lt_of_lt_of_le below (by decide)
  rw [isFinite, ofInt, ofRatio, magnitude_ofMagnitude _ inRange, decide_eq_true_eq]
  exact below

end SchemaTree.Binary64
