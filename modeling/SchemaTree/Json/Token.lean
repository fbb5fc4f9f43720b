import SchemaTree.Text.Digits
import SchemaTree.Text.Hex

/-!
The tokens of a JSON text.  Strings are read in full, down to escaped surrogates.  Of numbers only
the form is checked, so that there are none that are too large.
-/

namespace SchemaTree.Json

/-- A token. -/
inductive Token where
  | openArray
  | closeArray
  | openObject
  | closeObject
  | comma
  | colon
  | null
  | bool (value : Bool)
  | number
  /-- A string, unless it has a surrogate that is not part of a pair. -/
  | string (value : Option String)
  deriving DecidableEq, Repr

namespace Token

/-- Whether blanks between tokens may have this character. -/
def isSpace (char : Char) : Bool :=
  char = ' ' || char = '\t' || char = '\n' || char = '\r'

/-- The character that stands for another one after a backslash. -/
def escaped? (char : Char) : Option Char :=
  if char = '"' ∨ char = '\\' ∨ char = '/' then some char
  else if char = 'b' then some '\x08'
  else if char = 'f' then some '\x0c'
  else if char = 'n' then some '\n'
  else if char = 'r' then some '\r'
  else if char = 't' then some '\t'
  else none

def unit? (a b c d : Char) : Option Nat := do
  let high ← Text.Hex.byte? a b
  let low ← Text.Hex.byte? c d
  some (high.toNat * 256 + low.toNat)

/-- The code points and surrogates of a string up to its closing quote, and what follows it. -/
def takeUnits? : List Char → Option (List Nat × List Char)
  | [] =>
      none
  | '"' :: rest =>
      some ([], rest)
  | '\\' :: 'u' :: a :: b :: c :: d :: rest =>
      (unit? a b c d).bind fun unit =>
        (takeUnits? rest).map fun taken => (unit :: taken.1, taken.2)
  | '\\' :: char :: rest =>
      (escaped? char).bind fun char =>
        (takeUnits? rest).map fun taken => (char.toNat :: taken.1, taken.2)
  | char :: rest =>
      if char.toNat < 32 ∨ char = '\\' then none
      else (takeUnits? rest).map fun taken => (char.toNat :: taken.1, taken.2)

def isHighSurrogate (unit : Nat) : Bool :=
  0xD800 ≤ unit && unit < 0xDC00

def isLowSurrogate (unit : Nat) : Bool :=
  0xDC00 ≤ unit && unit < 0xE000

/-- The characters of code points, of which two surrogates make one. -/
def ofUnits? : List Nat → Option (List Char)
  | [] =>
      some []
  | [unit] =>
      if isHighSurrogate unit || isLowSurrogate unit then none else some [Char.ofNat unit]
  | first :: second :: rest =>
      if isHighSurrogate first then
        if isLowSurrogate second then
          (ofUnits? rest).map fun chars =>
            Char.ofNat (0x10000 + (first - 0xD800) * 0x400 + (second - 0xDC00)) :: chars
        else none
      else if isLowSurrogate first then none
      else (ofUnits? (second :: rest)).map fun chars => Char.ofNat first :: chars

def skipDigits? (text : List Char) : Option (List Char) :=
  if (text.head?.any Text.isDigit) then some (text.dropWhile Text.isDigit) else none

/-- What follows the whole part of a number, which has no leading zero. -/
def skipWhole? : List Char → Option (List Char)
  | '0' :: rest => if rest.head?.any Text.isDigit then none else some rest
  | text => skipDigits? text

/-- What follows the fraction of a number, if there is one. -/
def skipFraction? : List Char → Option (List Char)
  | '.' :: rest => skipDigits? rest
  | text => some text

/-- What follows the exponent of a number, if there is one. -/
def skipExponent? : List Char → Option (List Char)
  | 'e' :: rest | 'E' :: rest => skipDigits? (Text.splitSign rest).2
  | text => some text

def skipNumber? (text : List Char) : Option (List Char) := do
  let rest ← skipWhole? (if text.head? = some '-' then text.drop 1 else text)
  let rest ← skipFraction? rest
  skipExponent? rest

def mark? (char : Char) : Option Token :=
  if char = '[' then some openArray
  else if char = ']' then some closeArray
  else if char = '\x7b' then some openObject
  else if char = '\x7d' then some closeObject
  else if char = ',' then some comma
  else if char = ':' then some colon
  else none

def takeWord? (text : List Char) : Option (Token × List Char) :=
  if "null".toList.isPrefixOf text then some (null, text.drop 4)
  else if "true".toList.isPrefixOf text then some (bool true, text.drop 4)
  else if "false".toList.isPrefixOf text then some (bool false, text.drop 5)
  else none

/-- The first token of a text that starts with neither a blank nor a mark, and what follows it. -/
def take? (text : List Char) : Option (Token × List Char) :=
  if text.head? = some '"' then
    (takeUnits? (text.drop 1)).map fun taken =>
      (Token.string ((ofUnits? taken.1).map String.ofList), taken.2)
  else if text.head?.any fun char => char = '-' || Text.isDigit char then
    (skipNumber? text).map fun rest => (number, rest)
  else takeWord? text

/-- The tokens of a text, in which no more than a number of them are looked for. -/
def scanUpTo : Nat → List Char → Option (List Token)
  | _, [] =>
      some []
  | 0, _ =>
      none
  | count + 1, char :: rest =>
      if isSpace char then scanUpTo count rest
      else match mark? char with
        | some token => (scanUpTo count rest).map fun tokens => token :: tokens
        | none => (take? (char :: rest)).bind fun taken =>
            (scanUpTo count taken.2).map fun tokens => taken.1 :: tokens

/-- The tokens of a text; there are no more than it has characters. -/
def scan (text : String) : Option (List Token) :=
  scanUpTo text.toList.length text.toList

end Token

end SchemaTree.Json
