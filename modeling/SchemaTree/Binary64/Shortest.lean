import SchemaTree.Binary64
import SchemaTree.Text.Digits

/-!
The shortest decimal of a double: of all decimals that round to it, one on the coarsest grid of
powers of ten, and of these the nearest.  It is printed positionally, without an exponent.
-/

namespace SchemaTree.Binary64

/-- The decimals that round to a double, in quarters of the unit of its last bit: the double
itself and both ends, which belong to the interval exactly if the significand is even. -/
structure Neighbourhood where
  low : Nat
  centre : Nat
  high : Nat
  closed : Bool

/-- The neighbourhood of a finite double that is not zero.  Below a power of two the doubles lie
twice as close. -/
def neighbourhood (x : Binary64) : Neighbourhood where
  low := 4 * x.significand - if x.fraction = 0 ∧ 1 < x.exponentField then 1 else 2
  centre := 4 * x.significand
  high := 4 * x.significand + 2
  closed := x.significand % 2 = 0

/-- The ratio of a quarter of the unit of the last bit to a power of ten. -/
def gridRatio (x : Binary64) (exponent : Int) : Nat × Nat :=
  let binary : Int := x.exponentStep - 1076
  (twoTo binary.toNat * tenTo (-exponent).toNat, twoTo (-binary).toNat * tenTo exponent.toNat)

/-- The multiple of a power of ten that rounds to a double, if there is one: of the two multiples
around the double the nearer, in a tie the larger. -/
def onGrid? (x : Binary64) (exponent : Int) : Option Nat :=
  let around := x.neighbourhood
  let (numerator, denominator) := x.gridRatio exponent
  let contains (multiple : Nat) : Bool :=
    if around.closed then
      around.low * numerator ≤ multiple * denominator
        && multiple * denominator ≤ around.high * numerator
    else
      around.low * numerator < multiple * denominator
        && multiple * denominator < around.high * numerator
  let below := around.centre * numerator / denominator
  let nearBelow : Bool := 2 * (around.centre * numerator) < (2 * below + 1) * denominator
  match contains below, contains (below + 1) with
  | true, true => some (if nearBelow then below else below + 1)
  | true, false => some below
  | false, true => some (below + 1)
  | false, false => none

/-- Digits and power of ten of the shortest decimal.  Every finite double is a multiple of
`10 ^ -1074`, and none reaches `10 ^ 309`. -/
def shortest (x : Binary64) : Nat × Int :=
  let found := (List.range 1384).findSome? fun (step : Nat) =>
    let exponent : Int := 309 - (step : Int)
    (x.onGrid? exponent).map fun digits => (digits, exponent)
  found.getD (0, 0)

def positional (digits : Nat) (exponent : Int) : List Char :=
  if 0 ≤ exponent then (Text.showNat digits).toList ++ List.replicate exponent.toNat '0'
  else
    let places := (-exponent).toNat
    let padded := Text.padded (places + 1) digits
    padded.take (padded.length - places) ++ '.' :: padded.drop (padded.length - places)

def text (x : Binary64) : String :=
  if x.isNaN then "NaN"
  else
    let sign := if x.negative then "-" else ""
    if x.isInfinite then sign ++ "inf"
    else if x.magnitude = 0 then sign ++ "0"
    else sign ++ String.ofList (positional x.shortest.1 x.shortest.2)

end SchemaTree.Binary64
