import SchemaTree.Binary64.Rounding
import SchemaTree.Text.Digits

/-!
Doubles read from text: an optional sign, then `inf`, `infinity` or `nan` in letters of any case,
or a decimal with at least one digit around an optional point, and an optional exponent.  Each of
them keeps the sign.
-/

namespace SchemaTree.Binary64

open Text

/-- The exponent at the end of a decimal: nothing, or `e` and an integer. -/
def readExponent? : List Char → Option Int
  | [] =>
      some 0
  | mark :: rest =>
      if mark = 'e' ∨ mark = 'E' then readInt? rest else none

/-- The digits after an optional point, and what follows them. -/
def splitFraction : List Char → List Char × List Char
  | '.' :: rest => rest.span isDigit
  | text => ([], text)

def readDecimal? (negative : Bool) (text : List Char) : Option Binary64 :=
  let (whole, rest) := text.span isDigit
  let (part, rest) := splitFraction rest
  if whole = [] ∧ part = [] then none
  else (readExponent? rest).map fun exponent =>
    ofDecimal negative (digitsValue (whole ++ part)) (exponent - part.length)

def read? (text : List Char) : Option Binary64 :=
  let (negative, rest) := splitSign text
  let word := rest.map Char.toLower
  if word = "inf".toList ∨ word = "infinity".toList then some (infinity negative)
  else if word = "nan".toList then some (ofMagnitude negative nanMagnitude)
  else readDecimal? negative rest

end SchemaTree.Binary64
