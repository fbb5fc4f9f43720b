import SchemaTree.NumericArray.Blob
import SchemaTree.Validation

/-!
Storage.  `Field.store` turns a value into the form that a store holds, and `Field.read` turns it
back: object identifiers into their texts, dates into midnights in UTC, integer keys into strings,
coordinates into tagged geometries, arrays into blobs, and documents into dicts that name their
type under `_cls`.  Null stays null both ways, and what a kind has no form for is left as it is.
-/

namespace SchemaTree

def DictFlavor.storeKey (flavor : DictFlavor) : Value → Value
  | .int value => if flavor.hasIntKeys then .string (Text.showInt value.toInt) else .int value
  | key => key

def DictFlavor.readKey (flavor : DictFlavor) : Value → Except Error Value
  | .string text =>
      if flavor.hasIntKeys then
        match Text.readInt64? text.toList with
        | some value => .ok (.int value)
        | none => .error (.codec (.storedIntKey text))
      else .ok (.string text)
  | key => .ok key

/-- Coordinates with the type of their geometry; a dict has it already. -/
def GeoKind.store (geometry : GeoKind) (value : Value) : Value :=
  if value.isDict then value
  else .ofMembers [("type", .string geometry.geojsonType), ("coordinates", value)]

def GeoKind.read (value : Value) : Except Error Value :=
  if value.isDict then
    match value.get? "coordinates" with
    | some coordinates => .ok coordinates
    | none => .error (.codec .noCoordinates)
  else .ok value

namespace Value

def storeArray (location : String) : Value → Except Error Value
  | array value => .ok (.binary value.toBlob)
  | list items => (located location (toArray items)).map fun value => .binary value.toBlob
  | other => .ok other

def readArray : Value → Except Error Value
  | binary bytes => (NumericArray.ofBlob bytes).map Value.array
  | list items => match toArray items with
    | .ok value => .ok (.array value)
    | .error violation => .error (.codec (.storedVector violation))
  | other => .ok other

end Value

namespace Kind

/-- Stores a value that is not null for a kind that has no fields inside. -/
def storeScalar (location : String) : Kind → Value → Except Error Value
  | objectId, .string text => match ObjectId.read? text with
    | some id => .ok (.objectId id)
    | none => .error (.invalid (some location) (.notObjectId (Value.quote text)))
  | uuid, .string text => match Uuid.read? text with
    | some id => .ok (.uuid id)
    | none => .error (.invalid (some location) (.notUuid (Value.quote text)))
  | int, value | frameNumber, value => located location (value.toInt.map Value.int)
  | float _ _, value => located location (value.toFloat.map Value.float)
  | date, .date day => .ok (.dateTime (Calendar.DateTime.midnight day))
  | geo geometry, value => .ok (geometry.store value)
  | vector, value | array, value => value.storeArray location
  | _, value => .ok value

/-- Reads a stored value that is not null for a kind that has no fields inside. -/
def readScalar : Kind → Value → Except Error Value
  | objectId, .objectId id => .ok (.string id.hex)
  | uuid, .string text => match Uuid.read? text with
    | some id => .ok (.uuid id)
    | none => .error (.codec (.storedUuid text))
  | int, .float value | frameNumber, .float value =>
      .ok (if value.isIntegral then .int (Int64.ofIntClamp value.truncate) else .float value)
  | float _ _, .int value => .ok (.float (.ofInt value.toInt))
  | date, .dateTime value => .ok (.date value.toUtc.date)
  | geo _, value => GeoKind.read value
  | vector, value | array, value => value.readArray
  | _, value => .ok value

end Kind

mutual

def Field.store (value : Value) : Field → Except Error Value
  | ⟨_, .list _ none⟩ => .ok value
  | ⟨_, .list _ (some element)⟩ => match value with
    | .list items => (mapEach (fun item => element.store item) items).map Value.list
    | other => .ok other
  | ⟨_, .dict flavor none⟩ => match value with
    | .dict entries => .ok (.dict (entries.map fun entry => (flavor.storeKey entry.1, entry.2)))
    | other => .ok other
  | ⟨_, .dict flavor (some element)⟩ => match value with
    | .dict entries =>
        (mapEach (fun entry : Value × Value =>
          (element.store entry.2).map fun stored => (flavor.storeKey entry.1, stored))
          entries).map Value.dict
    | other => .ok other
  | ⟨_, .embedded nested⟩ => nested.store value
  | ⟨attributes, kind⟩ =>
      if value.isNull then .ok value else kind.storeScalar attributes.location value
  termination_by structural field => field

/-- The form in which a store holds a document, which starts with the name of its type. -/
def Embedded.store (value : Value) : Embedded → Except Error Value
  | ⟨_, _, _, fields, _⟩ => match value with
    | .document type members =>
        (mapEach (fun member : String × Value =>
          (storeMember member.1 member.2 fields).map fun stored =>
            (Value.string member.1, stored)) members).map fun entries =>
              .dict ((.string classKey, .string type.name) :: entries)
    | other => .ok other
  termination_by structural nested => nested

/-- The stored form of the member of a name; a member without a field is left as it is. -/
def storeMember (name : String) (value : Value) : List (String × Field) → Except Error Value
  | [] => .ok value
  | (key, field) :: rest =>
      if key = name then field.store value else storeMember name value rest
  termination_by structural fields => fields

end

mutual

def Field.read (value : Value) : Field → Except Error Value
  | ⟨_, .list _ none⟩ => .ok value
  | ⟨_, .list _ (some element)⟩ => match value with
    | .list items => (mapEach (fun item => element.read item) items).map Value.list
    | other => .ok other
  | ⟨_, .dict flavor none⟩ => match value with
    | .dict entries =>
        (mapEach (fun entry : Value × Value =>
          (flavor.readKey entry.1).map fun key => (key, entry.2)) entries).map Value.dict
    | other => .ok other
  | ⟨_, .dict flavor (some element)⟩ => match value with
    | .dict entries =>
        (mapEach (fun entry : Value × Value =>
          (flavor.readKey entry.1).bind fun key =>
            (element.read entry.2).map fun item => (key, item)) entries).map Value.dict
    | other => .ok other
  | ⟨_, .embedded nested⟩ => nested.read value
  | ⟨_, kind⟩ => if value.isNull then .ok value else kind.readScalar value
  termination_by structural field => field

/-- The document of a stored form, which has the type of the payload whatever it names itself. -/
def Embedded.read (value : Value) : Embedded → Except Error Value
  | ⟨documentType, _, _, fields, _⟩ => match value with
    | .dict entries =>
        (mapEach (fun entry : Value × Value => match entry.1 with
          | .string name =>
              if name = classKey then .ok []
              else (readMember name entry.2 fields).map fun item => [(name, item)]
          | other => .error (.codec (.documentKey other.typeName))) entries).map fun members =>
            .document documentType (Mapping.ofList members.flatten)
    | other => .ok other
  termination_by structural nested => nested

/-- The value of the stored member of a name; a member without a field is left as it is. -/
def readMember (name : String) (value : Value) : List (String × Field) → Except Error Value
  | [] => .ok value
  | (key, field) :: rest =>
      if key = name then field.read value else readMember name value rest
  termination_by structural fields => fields

end

end SchemaTree
