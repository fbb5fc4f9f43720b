import SchemaTree.Power

/-!
Decimal digits, and integers written in them with an optional sign.
-/

namespace SchemaTree.Text

/-- Whether a character is one of the ten ASCII digits. -/
def isDigit (char : Char) : Bool :=
  48 ≤ char.toNat && char.toNat ≤ 57

/-- The value of a row of digits, the most significant first. -/
def digitsValue (digits : List Char) : Nat :=
  digits.foldl (fun value digit => 10 * value + (digit.toNat - 48)) 0

/-- Splits off a leading sign; the flag says whether it was a minus. -/
def splitSign : List Char → Bool × List Char
  | '-' :: rest => (true, rest)
  | '+' :: rest => (false, rest)
  | text => (false, text)

/-- The integer written as an optional sign and at least one digit. -/
def readInt? (text : List Char) : Option Int :=
  let (negative, digits) := splitSign text
  if digits ≠ [] ∧ digits.all isDigit then
    some (if negative then -(digitsValue digits : Int) else digitsValue digits)
  else none

/-- An integer as one of 64 bits with a sign, if it fits. -/
def toInt64? (value : Int) : Option Int64 :=
  if -(twoTo 63 : Int) ≤ value ∧ value < twoTo 63 then some (Int64.ofInt value) else none

/-- The integer written in a text, if it fits in 64 bits with a sign. -/
def readInt64? (text : List Char) : Option Int64 :=
  (readInt? text).bind toInt64?

def showNat (value : Nat) : String :=
  toString value

/-- An integer in digits, after a minus if it is negative. -/
def showInt (value : Int) : String :=
  toString value

/-- Digits of a natural number, filled up with leading zeros to at least `width`. -/
def padded (width value : Nat) : List Char :=
  let digits := (showNat value).toList
  List.replicate (width - digits.length) '0' ++ digits

end SchemaTree.Text
