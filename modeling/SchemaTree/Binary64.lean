import SchemaTree.Power

/-!
IEEE 754 double-precision numbers, given by their bits.  A finite number is its significand times
a power of two; comparison, truncation and rounding are exact arithmetic on these parts.
-/

namespace SchemaTree

/-- A double-precision number. -/
structure Binary64 where
  /-- The interchange encoding: sign, eleven exponent bits, fifty-two fraction bits. -/
  bits : UInt64
  deriving DecidableEq, Repr

namespace Binary64

def negative (x : Binary64) : Bool :=
  twoTo 63 ≤ x.bits.toNat

/-- The encoding without the sign bit.  Magnitudes of numbers are ordered as their encodings. -/
def magnitude (x : Binary64) : Nat :=
  x.bits.toNat % twoTo 63

/-- The magnitude of the infinities; larger magnitudes encode no number. -/
def infinityMagnitude : Nat :=
  2047 * twoTo 52

/-- The magnitude of what is no number, unless that carries a payload. -/
def nanMagnitude : Nat :=
  infinityMagnitude + twoTo 51

def ofMagnitude (negative : Bool) (magnitude : Nat) : Binary64 :=
  ⟨UInt64.ofNat (if negative then twoTo 63 + magnitude else magnitude)⟩

def zero : Binary64 := ofMagnitude false 0

def infinity (negative : Bool) : Binary64 :=
  ofMagnitude negative infinityMagnitude

def nan : Binary64 := ofMagnitude false nanMagnitude

def isNaN (x : Binary64) : Bool :=
  infinityMagnitude < x.magnitude

def isInfinite (x : Binary64) : Bool :=
  x.magnitude = infinityMagnitude

def isFinite (x : Binary64) : Bool :=
  x.magnitude < infinityMagnitude

/-- An integer that orders all numbers, the infinities included, and identifies the two zeros. -/
def orderKey (x : Binary64) : Int :=
  if x.negative then -(x.magnitude : Int) else x.magnitude

/-- Whether both are numbers and the first is smaller. -/
def lt (x y : Binary64) : Bool :=
  !x.isNaN && !y.isNaN && x.orderKey < y.orderKey

/-- Whether both are numbers and the first is not larger. -/
def le (x y : Binary64) : Bool :=
  !x.isNaN && !y.isNaN && x.orderKey ≤ y.orderKey

/-- Numeric equality: the zeros are equal, and what is not a number equals nothing. -/
def equal (x y : Binary64) : Bool :=
  !x.isNaN && !y.isNaN && x.orderKey = y.orderKey

def exponentField (x : Binary64) : Nat :=
  x.magnitude / twoTo 52

def fraction (x : Binary64) : Nat :=
  x.magnitude % twoTo 52

/-- The significand of a finite number, with the leading bit of normal numbers. -/
def significand (x : Binary64) : Nat :=
  if x.exponentField = 0 then x.fraction else twoTo 52 + x.fraction

/-- The power of two that scales the significand, counted from the smallest one, `-1074`. -/
def exponentStep (x : Binary64) : Nat :=
  x.exponentField - 1

/-- The whole part of a finite number's absolute value. -/
def wholePart (x : Binary64) : Nat :=
  if 1074 ≤ x.exponentStep then x.significand * twoTo (x.exponentStep - 1074)
  else x.significand / twoTo (1074 - x.exponentStep)

def truncate (x : Binary64) : Int :=
  if x.negative then -(x.wholePart : Int) else x.wholePart

/-- Whether a number is finite and has no fractional part. -/
def isIntegral (x : Binary64) : Bool :=
  x.isFinite && (1074 ≤ x.exponentStep || x.significand % twoTo (1074 - x.exponentStep) = 0)

theorem orderKey_ofMagnitude_zero (negative : Bool) : (ofMagnitude negative 0).orderKey = 0 := by
  cases negative <;> decide

theorem equal_self_iff (x : Binary64) : x.equal x = true ↔ x.isNaN = false := by
  simp [equal]

end Binary64

end SchemaTree
