import SchemaTree.Proofs.Field.Nested
import SchemaTree.Proofs.Storage.Settling

/-!
The forms that values have in a store.  What a field stores is in the form of the field, whatever
the value was, and the values in that form are exactly those that storing leaves as they are.  So
storing once more changes nothing.
-/

namespace SchemaTree

/-- Whether a key of a dict is in the form that it has in a store. -/
def DictFlavor.StorageKey (flavor : DictFlavor) (key : Value) : Prop :=
  flavor.hasIntKeys = true → ∀ number, key ≠ .int number

/-- Whether a value is in the form that it has in a store, for a kind without fields inside.
Numbers and geometries have one form only; the other kinds leave all values as they are but those
that they have another form for. -/
def Kind.StorageForm : Kind → Value → Prop
  | .objectId, .string _ | .uuid, .string _ | .date, .date _ => False
  | .vector, .array _ | .vector, .list _ | .array, .array _ | .array, .list _ => False
  | .int, value | .frameNumber, value => ∃ number, value = .int number
  | .float _ _, value => ∃ number, value = .float number
  | .geo _, value => ∃ entries, value = .dict entries
  | _, _ => True

/-- Whether a value is in the form that it has in a store, for any field.  The elements of
containers are in the form of the element field; a document has become a dict. -/
inductive Field.StorageForm : Field → Value → Prop
  | null (field : Field) : Field.StorageForm field .null
  | scalar (attributes : Attributes) {kind : Kind} {value : Value} (isScalar : kind.isScalar = true)
      (inForm : kind.StorageForm value) : Field.StorageForm ⟨attributes, kind⟩ value
  | untypedList (attributes : Attributes) (flavor : ListFlavor) (value : Value) :
      Field.StorageForm ⟨attributes, .list flavor none⟩ value
  | list (attributes : Attributes) (flavor : ListFlavor) {element : Field} {value : Value}
      (items : ∀ items, value = .list items → ∀ item ∈ items, Field.StorageForm element item) :
      Field.StorageForm ⟨attributes, .list flavor (some element)⟩ value
  | untypedDict (attributes : Attributes) {flavor : DictFlavor} {value : Value}
      (keys : ∀ entries, value = .dict entries → ∀ entry ∈ entries, flavor.StorageKey entry.1) :
      Field.StorageForm ⟨attributes, .dict flavor none⟩ value
  | dict (attributes : Attributes) {flavor : DictFlavor} {element : Field} {value : Value}
      (keys : ∀ entries, value = .dict entries → ∀ entry ∈ entries, flavor.StorageKey entry.1)
      (values : ∀ entries, value = .dict entries →
        ∀ entry ∈ entries, Field.StorageForm element entry.2) :
      Field.StorageForm ⟨attributes, .dict flavor (some element)⟩ value
  | embedded (attributes : Attributes) (nested : Embedded) {value : Value}
      (noDocument : ∀ type members, value ≠ .document type members) :
      Field.StorageForm ⟨attributes, .embedded nested⟩ value

/-! ## Keys -/

namespace DictFlavor

variable {flavor : DictFlavor}

theorem storageKey_storeKey (key : Value) : flavor.StorageKey (flavor.storeKey key) := by
  intro integral number same
  cases key with
  | int other =>
      rw [storeKey, if_pos integral] at same
      contradiction
  | _ => contradiction

theorem storeKey_of_storageKey {key : Value} (isKey : flavor.StorageKey key) :
    flavor.storeKey key = key := by
  cases key with
  | int number =>
      rw [storeKey, if_neg]
      intro integral
      exact isKey integral number rfl
  | _ => rfl

end DictFlavor

/-! ## Kinds without fields inside -/

namespace Kind

variable {kind : Kind} {location : String} {value stored : Value}

theorem storageForm_of_storeArray (isArray : kind = vector ∨ kind = array)
    (isStored : value.storeArray location = .ok stored) : kind.StorageForm stored := by
  have blob : ∀ bytes, kind.StorageForm (.binary bytes) := by
    obtain rfl | rfl := isArray <;> exact fun _ => trivial
  cases value with
  | array found =>
      cases isStored
      exact blob _
  | list items =>
      obtain ⟨found, _, rfl⟩ := map_eq_ok_iff.mp isStored
      exact blob _
  | _ =>
      cases isStored
      obtain rfl | rfl := isArray <;> trivial

theorem storageForm_geo (geometry : GeoKind) (value : Value) :
    (geo geometry).StorageForm (geometry.store value) := by
  cases value <;> exact ⟨_, rfl⟩

/-- What a kind stores is in its form.  One case for each kind without fields inside. -/
theorem storageForm_of_storeScalar (isScalar : kind.isScalar = true)
    (isStored : kind.storeScalar location value = .ok stored) : kind.StorageForm stored := by
  cases kind with
  | objectId =>
      cases value with
      | string text =>
          rw [storeScalar] at isStored
          split at isStored <;> cases isStored
          trivial
      | _ =>
          cases isStored
          trivial
  | uuid =>
      cases value with
      | string text =>
          rw [storeScalar] at isStored
          split at isStored <;> cases isStored
          trivial
      | _ =>
          cases isStored
          trivial
  | int =>
      obtain ⟨number, _, rfl⟩ := map_eq_ok_iff.mp (located_eq_ok_iff.mp isStored)
      exact ⟨number, rfl⟩
  | frameNumber =>
      obtain ⟨number, _, rfl⟩ := map_eq_ok_iff.mp (located_eq_ok_iff.mp isStored)
      exact ⟨number, rfl⟩
  | float least greatest =>
      obtain ⟨number, _, rfl⟩ := map_eq_ok_iff.mp (located_eq_ok_iff.mp isStored)
      exact ⟨number, rfl⟩
  | date => cases value <;> cases isStored <;> trivial
  | geo geometry =>
      cases isStored
      exact storageForm_geo geometry value
  | vector => exact storageForm_of_storeArray (.inl rfl) isStored
  | array => exact storageForm_of_storeArray (.inr rfl) isStored
  | list flavor element => contradiction
  | dict flavor element => contradiction
  | embedded nested => contradiction
  | _ => trivial

/-- A kind leaves what is in its form as it is. -/
theorem storeScalar_of_storageForm (inForm : kind.StorageForm value) :
    kind.storeScalar location value = .ok value := by
  cases kind with
  | objectId => cases value <;> first | rfl | exact inForm.elim
  | uuid => cases value <;> first | rfl | exact inForm.elim
  | date => cases value <;> first | rfl | exact inForm.elim
  | vector => cases value <;> first | rfl | exact inForm.elim
  | array => cases value <;> first | rfl | exact inForm.elim
  | int =>
      obtain ⟨number, rfl⟩ := inForm
      rfl
  | frameNumber =>
      obtain ⟨number, rfl⟩ := inForm
      rfl
  | float least greatest =>
      obtain ⟨number, rfl⟩ := inForm
      rfl
  | geo geometry =>
      obtain ⟨entries, rfl⟩ := inForm
      rfl
  | _ => rfl

end Kind

/-! ## All fields -/

namespace Field

variable {attributes : Attributes} {value stored : Value}

theorem storageForm_scalar {kind : Kind} (isScalar : kind.isScalar = true)
    (isStored : Field.store value ⟨attributes, kind⟩ = .ok stored) :
    Field.StorageForm ⟨attributes, kind⟩ stored := by
  cases missing : value.isNull with
  | true =>
      cases value with
      | null =>
          cases (store_null _).symm.trans isStored
          exact .null _
      | _ => contradiction
  | false =>
      rw [store_scalar isScalar missing] at isStored
      exact .scalar attributes isScalar (Kind.storageForm_of_storeScalar isScalar isStored)

/-- A document is stored as a dict. -/
theorem storageForm_embedded {nested : Embedded}
    (isStored : Field.store value ⟨attributes, .embedded nested⟩ = .ok stored) :
    Field.StorageForm ⟨attributes, .embedded nested⟩ stored := by
  refine .embedded attributes nested ?_
  rintro type members rfl
  obtain ⟨documentType, declared, displaced, fields, view⟩ := nested
  cases value with
  | document found others =>
      obtain ⟨forms, _, isDict⟩ := map_eq_ok_iff.mp isStored
      contradiction
  | _ => cases isStored

/-- What a field stores is in its form.  The induction is on elements alone, since no document is
left that could have members. -/
theorem storageForm_of_store {field : Field} (isStored : field.store value = .ok stored) :
    field.StorageForm stored := by
  induction field using parts_induction generalizing value stored with
  | step field ofElement _ =>
      obtain ⟨attributes, kind⟩ := field
      cases kind with
      | list flavor element =>
          cases element with
          | none => exact .untypedList attributes flavor stored
          | some element =>
              refine .list attributes flavor ?_
              rintro forms rfl form isForm
              cases value with
              | list items =>
                  obtain ⟨_, mapped, ⟨⟩⟩ := map_eq_ok_iff.mp isStored
                  obtain ⟨item, _, isItem⟩ := exists_of_mapEach mapped isForm
                  exact ofElement element rfl isItem
              | _ => cases isStored
      | dict flavor element =>
          cases element with
          | none =>
              refine .untypedDict attributes ?_
              rintro forms rfl form isForm
              cases value with
              | dict entries =>
                  cases isStored
                  obtain ⟨entry, _, rfl⟩ := List.mem_map.mp isForm
                  exact DictFlavor.storageKey_storeKey entry.1
              | _ => cases isStored
          | some element =>
              have eachForm : ∀ forms, stored = .dict forms → ∀ form ∈ forms,
                  flavor.StorageKey form.1 ∧ element.StorageForm form.2 := by
                rintro forms rfl form isForm
                cases value with
                | dict entries =>
                    obtain ⟨_, mapped, ⟨⟩⟩ := map_eq_ok_iff.mp isStored
                    obtain ⟨entry, _, isEntry⟩ := exists_of_mapEach mapped isForm
                    obtain ⟨inner, isInner, rfl⟩ := map_eq_ok_iff.mp isEntry
                    exact ⟨DictFlavor.storageKey_storeKey entry.1, ofElement element rfl isInner⟩
                | _ => cases isStored
              refine .dict attributes ?_ ?_
              · exact fun forms isDict form isForm => (eachForm forms isDict form isForm).1
              · exact fun forms isDict form isForm => (eachForm forms isDict form isForm).2
      | embedded nested => exact storageForm_embedded isStored
      | _ => exact storageForm_scalar rfl isStored

/-- A field leaves what is in its form as it is. -/
theorem StorageForm.store_eq {field : Field} (inForm : field.StorageForm value) :
    field.store value = .ok value := by
  induction inForm with
  | null field => exact field.store_null
  | @scalar attributes kind value isScalar inForm =>
      cases missing : value.isNull with
      | true =>
          cases value with
          | null => exact store_null _
          | _ => contradiction
      | false =>
          rw [store_scalar isScalar missing]
          exact Kind.storeScalar_of_storageForm inForm
  | untypedList attributes flavor value => rfl
  | @list attributes flavor element value _ inductionHypothesis =>
      cases value with
      | list items =>
          have unchanged := mapEach_eq_self (inductionHypothesis items rfl)
          exact map_eq_ok_iff.mpr ⟨items, unchanged, rfl⟩
      | _ => rfl
  | @untypedDict attributes flavor value keys =>
      cases value with
      | dict entries =>
          have sameEntry : ∀ entry ∈ entries, (flavor.storeKey entry.1, entry.2) = entry := by
            intro entry inEntries
            have sameKey := DictFlavor.storeKey_of_storageKey (keys entries rfl entry inEntries)
            exact Prod.ext sameKey rfl
          have unchanged := (List.map_congr_left sameEntry).trans (List.map_id entries)
          exact congrArg (Except.ok ∘ Value.dict) unchanged
      | _ => rfl
  | @dict attributes flavor element value keys _ inductionHypothesis =>
      cases value with
      | dict entries =>
          refine map_eq_ok_iff.mpr ⟨entries, mapEach_eq_self fun entry inEntries => ?_, rfl⟩
          have unchanged := inductionHypothesis entries rfl entry inEntries
          have sameKey := DictFlavor.storeKey_of_storageKey (keys entries rfl entry inEntries)
          exact map_eq_ok_iff.mpr ⟨entry.2, unchanged, Prod.ext sameKey rfl⟩
      | _ => rfl
  | @embedded attributes nested value noDocument =>
      obtain ⟨documentType, declared, displaced, fields, view⟩ := nested
      cases value with
      | document type members => exact absurd rfl (noDocument type members)
      | _ => rfl

/-- The values that a field leaves as they are, are those in its form. -/
theorem store_eq_self_iff {field : Field} :
    field.store value = .ok value ↔ field.StorageForm value :=
  ⟨storageForm_of_store, StorageForm.store_eq⟩

/-- What was stored is in the form of the field, and so storing it again changes nothing: neither
validity nor the kind of the value matters. -/
theorem store_of_stored {field : Field} (isStored : field.store value = .ok stored) :
    field.StorageForm stored ∧ field.store stored = .ok stored := by
  have inForm := storageForm_of_store isStored
  exact ⟨inForm, inForm.store_eq⟩

end Field

/-- Points by frame number. -/
def sightingField : Field :=
  .intDict "sightings" (some (.list "points" (some (.geo "point" .point))))

/-- A point in a frame, beside a text where a point is expected and a key that is no frame. -/
def sightings : Value :=
  .dict [(.int 7, .list [.list [.int 3, .int 4], .string "nowhere", .null]), (.bool true, .int 5)]

/-- What is stored, whether it is valid or not, stays as it is. -/
theorem store_of_stored_sightings :
    let point := fun coordinates =>
      Value.ofMembers [("type", .string "Point"), ("coordinates", coordinates)]
    let stored := Value.dict [(.string "7", .list [point (.list [.int 3, .int 4]),
      point (.string "nowhere"), .null]), (.bool true, .int 5)]
    sightingField.store sightings = .ok stored ∧ sightingField.StorageForm stored ∧
      sightingField.store stored = .ok stored := by
  have isStored : sightingField.store sightings = .ok (.dict [(.string "7", .list [
      .ofMembers [("type", .string "Point"), ("coordinates", .list [.int 3, .int 4])],
      .ofMembers [("type", .string "Point"), ("coordinates", .string "nowhere")], .null]),
      (.bool true, .int 5)]) := rfl
  exact ⟨isStored, Field.store_of_stored isStored⟩

end SchemaTree
