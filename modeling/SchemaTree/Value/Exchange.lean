import SchemaTree.Binary64.Shortest
import SchemaTree.Calendar.Rfc3339
import SchemaTree.NumericArray.Blob
import SchemaTree.Text.Base64
import SchemaTree.Value

/-!
The exchange form of values, which is JSON data.  What JSON lacks is written as an object with one
member, whose key is a tag: `$oid`, `$uuid`, `$date` or `$binary`.  Documents are written with the
name of their type under `_cls`, and come back as dicts.
-/

namespace SchemaTree.Value

open Calendar

def tagged (tag text : String) : Json :=
  .object [(tag, .string text)]

/-- A date as the midnight in UTC that it starts with. -/
def dateText (date : Date) : String :=
  String.ofList (Rfc3339.showDate date) ++ "T00:00:00+00:00"

def bytesText (bytes : List UInt8) : String :=
  String.ofList (Text.Base64.encode bytes)

/-- The text of a dict key, which has to be a string or an integer. -/
def keyText : Value → Except Error String
  | string text => .ok text
  | int value => .ok (Text.showInt value.toInt)
  | other => .error (.codec (.dictKey other.typeName))

/-- A double as a JSON number, which has to be finite. -/
def floatToJson (value : Binary64) : Except Error Json :=
  if value.isFinite then .ok (.float value) else .error (.codec (.noJsonForm value.text))

mutual

def toJson : Value → Except Error Json
  | .null => .ok .null
  | .bool value => .ok (.bool value)
  | .int value => .ok (.int value.toInt)
  | .float value => floatToJson value
  | .string text => .ok (.string text)
  | .objectId id => .ok (tagged "$oid" id.hex)
  | .uuid id => .ok (tagged "$uuid" id.text)
  | .date day => .ok (tagged "$date" (dateText day))
  | .dateTime value => .ok (tagged "$date" (Rfc3339.write value))
  | .binary bytes => .ok (tagged "$binary" (bytesText bytes))
  | .array value => .ok (tagged "$binary" (bytesText value.toBlob))
  | .list items => (itemsToJson items).map Json.array
  | .dict entries => (entriesToJson entries).map Json.ofMembers
  | .document type members =>
      (membersToJson members).map fun written =>
        Json.ofMembers ((classKey, .string type.name) :: written)
  termination_by structural value => value

def itemsToJson : List Value → Except Error (List Json)
  | [] =>
      .ok []
  | item :: rest =>
      (toJson item).bind fun first => (itemsToJson rest).map fun others => first :: others
  termination_by structural items => items

def entriesToJson : List (Value × Value) → Except Error (List (String × Json))
  | [] =>
      .ok []
  | (key, value) :: rest =>
      (keyText key).bind fun name => (toJson value).bind fun first =>
        (entriesToJson rest).map fun others => (name, first) :: others
  termination_by structural entries => entries

def membersToJson : List (String × Value) → Except Error (List (String × Json))
  | [] =>
      .ok []
  | (name, value) :: rest =>
      (toJson value).bind fun first =>
        (membersToJson rest).map fun others => (name, first) :: others
  termination_by structural members => members

end

/-- The value of a JSON integer; a double stands in for integers beyond 64 bits. -/
def ofInteger (value : Int) : Value :=
  match Text.toInt64? value with
  | some number => .int number
  | none => .float (.ofInt value)

/-- A value that was read, or the fault of a text that does not read as one. -/
def orFault (fault : CodecFault) : Option Value → Except Error Value
  | some value => .ok value
  | none => .error (.codec fault)

/-- How the text of a tag is read; other keys are no tags. -/
def tagReader? (tag : String) : Option (String → Except Error Value) :=
  if tag = "$binary" then
    some fun text => orFault .base64 ((Text.Base64.decode? text.toList).map binary)
  else if tag = "$date" then
    some fun text => orFault (.date text) ((Rfc3339.read? text).map dateTime)
  else if tag = "$oid" then
    some fun text => orFault (.objectId text) ((ObjectId.read? text).map objectId)
  else if tag = "$uuid" then
    some fun text => orFault (.uuid text) ((Uuid.read? text).map uuid)
  else none

/-- What the members of an object stand for, if they are a tag and its text. -/
def ofTagged? : List (String × Json) → Option (Except Error Value)
  | [(tag, .string text)] => (tagReader? tag).map fun reader => reader text
  | _ => none

mutual

def ofJson : Json → Except Error Value
  | .null => .ok .null
  | .bool value => .ok (.bool value)
  | .int value => .ok (ofInteger value)
  | .float value => .ok (.float value)
  | .string text => .ok (.string text)
  | .array items => (itemsOfJson items).map Value.list
  | .object members =>
      match ofTagged? members with
      | some outcome => outcome
      | none => (entriesOfJson members).map Value.dict
  termination_by structural json => json

def itemsOfJson : List Json → Except Error (List Value)
  | [] =>
      .ok []
  | item :: rest =>
      (ofJson item).bind fun first => (itemsOfJson rest).map fun others => first :: others
  termination_by structural items => items

def entriesOfJson : List (String × Json) → Except Error (List (Value × Value))
  | [] =>
      .ok []
  | (key, json) :: rest =>
      (ofJson json).bind fun first =>
        (entriesOfJson rest).map fun others => (.string key, first) :: others
  termination_by structural members => members

end

end SchemaTree.Value
