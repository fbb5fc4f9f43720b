import SchemaTree.Text.Hex

/-!
Universally unique identifiers: sixteen bytes, written in five groups of hexadecimal digits with
hyphens between them.  The plain digits, the groups in braces, and the groups after `urn:uuid:` in
any case are also read.
-/

namespace SchemaTree

/-- A universally unique identifier. -/
structure Uuid where
  bytes : List UInt8
  length_eq : bytes.length = 16
  deriving DecidableEq, Repr

namespace Uuid

def ofBytes? (bytes : List UInt8) : Option Uuid :=
  if length_eq : bytes.length = 16 then some ⟨bytes, length_eq⟩ else none

/-- Splits digits into groups of given sizes, with a hyphen between two groups. -/
def hyphenate : List Nat → List Char → List Char
  | [], digits =>
      digits
  | size :: sizes, digits =>
      digits.take size ++ '-' :: hyphenate sizes (digits.drop size)

/-- The sizes of all groups but the last, which has twelve digits. -/
def groupSizes : List Nat := [8, 4, 4, 4]

def dehyphenate? : List Nat → List Char → Option (List Char)
  | [], text =>
      if text.length = 12 then some text else none
  | size :: sizes, text =>
      match text.drop size with
      | '-' :: rest => (dehyphenate? sizes rest).map fun digits => text.take size ++ digits
      | _ => none

def text (id : Uuid) : String :=
  String.ofList (hyphenate groupSizes (Text.Hex.encode id.bytes))

def ofDigits? (digits : List Char) : Option Uuid :=
  (Text.Hex.decode? digits).bind ofBytes?

def readGroups? (text : List Char) : Option Uuid :=
  (dehyphenate? groupSizes text).bind ofDigits?

/-- The identifier written in a text, told apart by the length of the text. -/
def read? (text : String) : Option Uuid :=
  let chars := text.toList
  if chars.length = 32 then ofDigits? chars
  else if chars.length = 36 then readGroups? chars
  else if chars.length = 38 then
    if chars.head? = some '\x7b' ∧ chars.getLast? = some '\x7d' then
      readGroups? (chars.drop 1).dropLast
    else none
  else if chars.length = 45 then
    if (chars.take 9).map Char.toLower = "urn:uuid:".toList then readGroups? (chars.drop 9) else none
  else none

end Uuid

end SchemaTree
