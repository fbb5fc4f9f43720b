import SchemaTree.Binary64

/-!
Rounding to double precision.  A ratio of natural numbers goes to the nearest double, a tie to the
one whose last bit is zero, and what lies beyond the largest double to infinity.  Integers and
decimals are rounded through ratios.
-/

namespace SchemaTree.Binary64

/-- The whole number nearest to a ratio, a tie going to the even neighbour. -/
def roundDiv (numerator denominator : Nat) : Nat :=
  let quotient := numerator / denominator
  let twice := 2 * (numerator % denominator)
  if twice < denominator then quotient
  else if denominator < twice then quotient + 1
  else quotient + quotient % 2

/-- Numerator and denominator of a ratio divided by a power of two. -/
def scaleDown (numerator denominator : Nat) (exponent : Int) : Nat × Nat :=
  (numerator * twoTo (-exponent).toNat, denominator * twoTo exponent.toNat)

/-- The exponent of the largest power of two that is not above a positive ratio. -/
def leadingExponent (numerator denominator : Nat) : Int :=
  let estimate : Int := numerator.log2 - denominator.log2
  let (scaled, unit) := scaleDown numerator denominator estimate
  if unit ≤ scaled then estimate else estimate - 1

/-- The magnitude nearest to a ratio.  A carry out of the significand raises the exponent by one,
since the fields are adjacent. -/
def nearestMagnitude (numerator denominator : Nat) : Nat :=
  if numerator = 0 then 0
  else
    let exponent := max (leadingExponent numerator denominator - 52) (-1074)
    let (scaled, unit) := scaleDown numerator denominator exponent
    min ((exponent + 1074).toNat * twoTo 52 + roundDiv scaled unit) infinityMagnitude

def ofRatio (negative : Bool) (numerator denominator : Nat) : Binary64 :=
  ofMagnitude negative (nearestMagnitude numerator denominator)

def ofInt (value : Int) : Binary64 :=
  ofRatio (value < 0) value.natAbs 1

/-- The double nearest to `digits * 10 ^ exponent`.  Outside the range of doubles the power is not
computed: a decimal above `10 ^ 310` is infinite, one below `10 ^ -330` is zero. -/
def ofDecimal (negative : Bool) (digits : Nat) (exponent : Int) : Binary64 :=
  if digits = 0 then ofMagnitude negative 0
  else if 310 < exponent then infinity negative
  else if (digits.log2 / 3 + 1 : Nat) + exponent < -330 then ofMagnitude negative 0
  else ofRatio negative (digits * tenTo exponent.toNat) (tenTo (-exponent).toNat)

end SchemaTree.Binary64
