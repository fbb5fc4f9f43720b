import SchemaTree.Proofs.NumericArray
import SchemaTree.Proofs.Provenance
import SchemaTree.Proofs.Storage.Members
import SchemaTree.Proofs.Text.Hex

/-!
Storing and reading values of the kinds that have no fields inside.  A value that such a kind
accepts is read back as a value that it accepts too, and that storage leaves as it is from then on.
-/

namespace SchemaTree

open Calendar

/-- What storing asks of the value of a vector or of an array beyond what validation checks: it is
no blob, a blob can count its dimensions, and a list has a length of 64 bits. -/
def Value.StorableArray : Value → Prop
  | .binary _ => False
  | .array found => found.dimensions < twoTo 32
  | .list items => items.length < twoTo 64
  | _ => True

/-- What storing asks of the value of a kind without fields inside. -/
def Kind.Storable (value : Value) : Kind → Prop
  | .vector | .array => value.StorableArray
  | _ => True

/-- A value that is not null is read back as one that the kind accepts, and that has the same
stored form. -/
def Kind.Settles (kind : Kind) (value : Value) : Prop :=
  ∃ stored settled, (∀ location, kind.storeScalar location value = .ok stored) ∧
    stored.isNull = false ∧ kind.readScalar stored = .ok settled ∧
    (∀ location, kind.storeScalar location settled = .ok stored) ∧ settled.isNull = false ∧
    kind.checkScalar settled = .ok ()

namespace Kind

theorem settles_of_stable {kind : Kind} {value : Value} (present : value.isNull = false)
    (isStored : ∀ location, kind.storeScalar location value = .ok value)
    (isRead : kind.readScalar value = .ok value) (checked : kind.checkScalar value = .ok ()) :
    kind.Settles value :=
  ⟨value, value, isStored, present, isRead, isStored, present, checked⟩

theorem settles_id (id : ObjectId) {value : Value}
    (isStored : ∀ location, objectId.storeScalar location value = .ok (.objectId id)) :
    objectId.Settles value := by
  have reads : (ObjectId.read? id.hex).isSome = true := by
    rw [ObjectId.read?_hex]
    rfl
  refine ⟨.objectId id, .string id.hex, isStored, rfl, rfl, ?_, rfl, ?_⟩
  · intro location
    rw [storeScalar, ObjectId.read?_hex]
  · rw [checkScalar, Value.isObjectIdText, reads]
    · rfl
    · intro other isId
      contradiction

theorem settles_objectId {value : Value} (checked : objectId.checkScalar value = .ok ()) :
    objectId.Settles value := by
  cases value with
  | objectId id => exact settles_id id fun _ => rfl
  | string text =>
      cases isRead : ObjectId.read? text with
      | none =>
          rw [checkScalar, Value.isObjectIdText, isRead] at checked
          · contradiction
          · intro other isId
            contradiction
      | some id =>
          apply settles_id id
          intro location
          rw [storeScalar, isRead]
  | _ => contradiction

theorem settles_uuid {value : Value} (checked : uuid.checkScalar value = .ok ()) :
    uuid.Settles value := by
  have stable : ∀ id, uuid.Settles (.uuid id) := fun id =>
    settles_of_stable rfl (fun _ => rfl) rfl rfl
  cases value with
  | uuid id => exact stable id
  | string text =>
      cases isRead : Uuid.read? text with
      | none =>
          rw [checkScalar, Value.isUuidText, isRead] at checked
          · contradiction
          · intro other isId
            contradiction
      | some id =>
          refine ⟨.uuid id, .uuid id, ?_, rfl, rfl, fun _ => rfl, rfl, rfl⟩
          intro location
          rw [storeScalar, isRead]
  | _ => contradiction

theorem settles_boolean {value : Value} (checked : boolean.checkScalar value = .ok ()) :
    boolean.Settles value := by
  cases value with
  | bool truth => exact settles_of_stable rfl (fun _ => rfl) rfl rfl
  | _ => contradiction

theorem settles_int {value : Value} (checked : int.checkScalar value = .ok ()) :
    int.Settles value := by
  obtain ⟨number, isNumber, _⟩ := map_eq_ok_iff.mp checked
  refine ⟨.int number, .int number, ?_, rfl, rfl, fun _ => rfl, rfl, rfl⟩
  intro location
  rw [storeScalar, isNumber]
  rfl

theorem settles_frameNumber {value : Value} (checked : frameNumber.checkScalar value = .ok ()) :
    frameNumber.Settles value := by
  cases value with
  | int number => exact settles_of_stable rfl (fun _ => rfl) rfl checked
  | _ => contradiction

theorem settles_float {least greatest : Option Binary64} {value : Value}
    (checked : (float least greatest).checkScalar value = .ok ()) :
    (float least greatest).Settles value := by
  obtain ⟨number, isNumber, bounded⟩ := bind_eq_ok_iff.mp checked
  refine ⟨.float number, .float number, ?_, rfl, rfl, fun _ => rfl, rfl, bounded⟩
  intro location
  rw [storeScalar, isNumber]
  rfl

theorem settles_string {value : Value} (checked : string.checkScalar value = .ok ()) :
    string.Settles value := by
  cases value with
  | string text => exact settles_of_stable rfl (fun _ => rfl) rfl rfl
  | _ => contradiction

theorem settles_date {value : Value} (checked : date.checkScalar value = .ok ()) :
    date.Settles value := by
  cases value with
  | date day =>
      exact ⟨.dateTime (DateTime.midnight day), .date day, fun _ => rfl, rfl, rfl, fun _ => rfl,
        rfl, rfl⟩
  | _ => contradiction

theorem settles_dateTime {value : Value} (checked : dateTime.checkScalar value = .ok ()) :
    dateTime.Settles value := by
  cases value with
  | dateTime moment => exact settles_of_stable rfl (fun _ => rfl) rfl rfl
  | _ => contradiction

theorem settles_geo {geometry : GeoKind} {value : Value} (present : value.isNull = false)
    (checked : (geo geometry).checkScalar value = .ok ()) : (geo geometry).Settles value := by
  have plain : value.isDict = false := by
    cases value with
    | dict entries => contradiction
    | _ => rfl
  refine ⟨.ofMembers [("type", .string geometry.geojsonType), ("coordinates", value)], value, ?_,
    rfl, rfl, ?_, present, checked⟩ <;>
  · intro location
    rw [storeScalar, GeoKind.store, plain]
    rfl

theorem settles_blob {kind : Kind} (isArray : kind = vector ∨ kind = array) {value : Value}
    {settled : NumericArray} (isStored : ∀ location,
      value.storeArray location = .ok (.binary settled.toBlob))
    (few : settled.dimensions < twoTo 32) (checked : kind.checkScalar (.array settled) = .ok ()) :
    kind.Settles value := by
  have isRead : Value.readArray (.binary settled.toBlob) = .ok (.array settled) := by
    rw [Value.readArray, NumericArray.ofBlob_toBlob few]
    rfl
  obtain rfl | rfl := isArray <;>
    exact ⟨.binary settled.toBlob, .array settled, isStored, rfl, isRead, fun _ => rfl, rfl,
      checked⟩

theorem length_elementsOf (items : List Value) :
    (Value.elementsOf items).length = items.length := by
  unfold Value.elementsOf
  split
  · exact List.length_map _
  · split <;> exact List.length_map _

/-- A row of booleans and numbers makes an array of one dimension. -/
theorem toArray_of_numeric {items : List Value}
    (numeric : (items.all fun item => item.isNumber || item.isBool) = true)
    (short : items.length < twoTo 64) :
    ∃ array, Value.toArray items = .ok array ∧ array.dimensions = 1 := by
  have found : items.find? (fun item => !(item.isNumber || item.isBool)) = none := by
    rw [List.find?_eq_none]
    intro item inItems
    rw [List.all_eq_true.mp numeric item inItems]
    decide
  obtain ⟨array, covered, isRow⟩ := NumericArray.cover_rowShape (Value.elementsOf items)
    (Nat.lt_of_le_of_lt (Nat.le_of_eq (length_elementsOf items)) short)
  refine ⟨array, ?_, ?_⟩
  · rw [Value.toArray, found]
    exact covered
  · rw [NumericArray.dimensions, isRow]
    rfl

theorem settles_vector {value : Value} (checked : vector.checkScalar value = .ok ())
    (storable : value.StorableArray) : vector.Settles value := by
  cases value with
  | array array => exact settles_blob (.inl rfl) (fun _ => rfl) storable checked
  | list items =>
      have numeric : (items.all fun item => item.isNumber || item.isBool) = true := by
        by_contra other
        rw [checkScalar, checkVector, ensure, if_neg other] at checked
        contradiction
      obtain ⟨array, isArray, single⟩ := toArray_of_numeric numeric storable
      have isStored : ∀ location, (Value.list items).storeArray location =
          .ok (.binary array.toBlob) := by
        intro location
        rw [Value.storeArray, isArray]
        rfl
      apply settles_blob (.inl rfl) isStored
      · rw [single]
        decide
      · rw [checkScalar, checkVector, single]
        rfl
  | binary bytes => exact storable.elim
  | _ => contradiction

theorem settles_array {value : Value} (checked : array.checkScalar value = .ok ())
    (storable : value.StorableArray) : array.Settles value := by
  cases value with
  | array array => exact settles_blob (.inr rfl) (fun _ => rfl) storable rfl
  | binary bytes => exact storable.elim
  | _ => contradiction

/-- One case for each kind without fields inside. -/
theorem settles {kind : Kind} (isScalar : kind.isScalar = true) {value : Value}
    (present : value.isNull = false) (checked : kind.checkScalar value = .ok ())
    (storable : kind.Storable value) : kind.Settles value := by
  cases kind with
  | objectId => exact settles_objectId checked
  | uuid => exact settles_uuid checked
  | boolean => exact settles_boolean checked
  | int => exact settles_int checked
  | frameNumber => exact settles_frameNumber checked
  | float least greatest => exact settles_float checked
  | string => exact settles_string checked
  | date => exact settles_date checked
  | dateTime => exact settles_dateTime checked
  | list flavor element => contradiction
  | dict flavor element => contradiction
  | geo geometry => exact settles_geo present checked
  | vector => exact settles_vector checked storable
  | array => exact settles_array checked storable
  | embedded nested => contradiction

end Kind

end SchemaTree
