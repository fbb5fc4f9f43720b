import SchemaTree.Text.Hex

/-!
Object identifiers: twelve bytes, written as twenty-four hexadecimal digits.
-/

namespace SchemaTree

/-- An object identifier. -/
structure ObjectId where
  bytes : List UInt8
  length_eq : bytes.length = 12
  deriving DecidableEq, Repr

namespace ObjectId

def ofBytes? (bytes : List UInt8) : Option ObjectId :=
  if length_eq : bytes.length = 12 then some ⟨bytes, length_eq⟩ else none

def hex (id : ObjectId) : String :=
  String.ofList (Text.Hex.encode id.bytes)

/-- The byte of two characters.  A plus sign may stand in place of the first digit. -/
def readByte? (high low : Char) : Option UInt8 :=
  if high = '+' then (Text.Hex.digitValue? low).map UInt8.ofNat else Text.Hex.byte? high low

def readBytes? : List Char → Option (List UInt8)
  | [] =>
      some []
  | [_] =>
      none
  | high :: low :: rest =>
      (readByte? high low).bind fun byte => (readBytes? rest).map fun bytes => byte :: bytes

/-- The identifier written in a text of twenty-four characters. -/
def read? (text : String) : Option ObjectId :=
  (readBytes? text.toList).bind ofBytes?

end ObjectId

end SchemaTree
