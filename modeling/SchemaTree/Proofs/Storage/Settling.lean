import SchemaTree.Proofs.Field.Everywhere
import SchemaTree.Proofs.Storage.Scalars

/-!
Values settle after one passage through a store: what a field accepts is stored and read back as a
value that the field accepts as well, and from then on each passage gives the same value again.
-/

namespace SchemaTree

mutual

/-- What storing asks of a value beyond what validation checks.  No blob stands where an array is
expected, arrays have fewer than `2 ^ 32` dimensions and rows a length of 64 bits; the members of
a document have distinct names, none of which is reserved. -/
def Field.Storable (value : Value) : Field → Prop
  | ⟨_, .list _ (some element)⟩ =>
      ∀ items, value = .list items → ∀ item ∈ items, element.Storable item
  | ⟨_, .dict _ (some element)⟩ =>
      ∀ entries, value = .dict entries → ∀ entry ∈ entries, element.Storable entry.2
  | ⟨_, .embedded nested⟩ => nested.Storable value
  | ⟨_, kind⟩ => kind.Storable value
  termination_by structural field => field

/-- What storing asks of a document. -/
def Embedded.Storable (value : Value) : Embedded → Prop
  | ⟨_, _, _, fields, _⟩ => ∀ type members, value = .document type members →
      (members.map Prod.fst).Nodup ∧ classKey ∉ members.map Prod.fst ∧
        StorableMembers members fields
  termination_by structural nested => nested

/-- What storing asks of the members that have a field. -/
def StorableMembers (members : List (String × Value)) : List (String × Field) → Prop
  | [] => True
  | (name, field) :: rest =>
      (∀ value, Mapping.lookup members name = some value → field.Storable value) ∧
        StorableMembers members rest
  termination_by structural fields => fields

end

theorem storableMembers_iff {members : List (String × Value)} {fields : List (String × Field)} :
    StorableMembers members fields ↔ ∀ entry ∈ fields, ∀ value,
      Mapping.lookup members entry.1 = some value → entry.2.Storable value := by
  induction fields with
  | nil => exact ⟨fun _ _ isEntry => absurd isEntry List.not_mem_nil, fun _ => trivial⟩
  | cons entry rest inductionHypothesis =>
      rw [StorableMembers, List.forall_mem_cons, inductionHypothesis]

/-- A value with its stored form and its settled form. -/
structure Settled (store read : Value → Except Error Value) (IsValid : Value → Prop) where
  value : Value
  stored : Value
  settled : Value
  /-- The stored form of the settled value. -/
  again : Value
  isStored : store value = .ok stored
  isRead : read stored = .ok settled
  isStoredAgain : store settled = .ok again
  isReadAgain : read again = .ok settled
  sameNull : settled.isNull = value.isNull
  isValid : settled.isNull = false → IsValid settled

/-- A value that settles after one passage through a store. -/
def Settles (store read : Value → Except Error Value) (IsValid : Value → Prop)
    (value : Value) : Prop :=
  ∃ row : Settled store read IsValid, row.value = value

/-- A value of a field that settles. -/
def Field.Settles (field : Field) (value : Value) : Prop :=
  SchemaTree.Settles (field.store ·) (field.read ·)
    (fun settled => ∀ path, field.check path settled = .ok ()) value

namespace Field

theorem settles_null (field : Field) : field.Settles .null :=
  ⟨⟨.null, .null, .null, .null, field.store_null, field.read_null, field.store_null,
    field.read_null, rfl, fun present => absurd present (by decide)⟩, rfl⟩

theorem settles_of_present {field : Field} {value : Value}
    (settles : value.isNull = false → field.Settles value) : field.Settles value := by
  cases value with
  | null => exact field.settles_null
  | _ => exact settles rfl

section Scalars

variable {attributes : Attributes} {kind : Kind} (isScalar : kind.isScalar = true)

include isScalar

theorem store_scalar {value : Value} (present : value.isNull = false) :
    Field.store value ⟨attributes, kind⟩ = kind.storeScalar attributes.location value := by
  cases kind with
  | list flavor element => contradiction
  | dict flavor element => contradiction
  | embedded nested => contradiction
  | _ => exact if_neg (by rw [present]; decide)

theorem read_scalar {value : Value} (present : value.isNull = false) :
    Field.read value ⟨attributes, kind⟩ = kind.readScalar value := by
  cases kind with
  | list flavor element => contradiction
  | dict flavor element => contradiction
  | embedded nested => contradiction
  | _ => exact if_neg (by rw [present]; decide)

theorem check_scalar (path : String) (value : Value) :
    Field.check path value ⟨attributes, kind⟩ = located path (kind.checkScalar value) := by
  cases kind with
  | list flavor element => contradiction
  | dict flavor element => contradiction
  | embedded nested => contradiction
  | _ => rfl

theorem storable_scalar {value : Value} (storable : Field.Storable value ⟨attributes, kind⟩) :
    kind.Storable value := by
  cases kind with
  | list flavor element => contradiction
  | dict flavor element => contradiction
  | embedded nested => contradiction
  | _ => exact storable

theorem settles_scalar {value : Value} (present : value.isNull = false)
    (settles : kind.Settles value) : Field.Settles ⟨attributes, kind⟩ value := by
  obtain ⟨stored, settled, isStored, storedPresent, isRead, isStoredAgain, settledPresent,
    isValid⟩ := settles
  refine ⟨⟨value, stored, settled, stored, ?_, ?_, ?_, ?_, settledPresent.trans present.symm,
    ?_⟩, rfl⟩
  · exact (store_scalar isScalar present).trans (isStored _)
  · exact (read_scalar isScalar storedPresent).trans isRead
  · exact (store_scalar isScalar settledPresent).trans (isStoredAgain _)
  · exact (read_scalar isScalar storedPresent).trans isRead
  · intro _ path
    rw [check_scalar isScalar, isValid]
    rfl

end Scalars

/-! ## Lists and dicts -/

theorem settles_list {attributes : Attributes} {flavor : ListFlavor} {element : Field}
    (checksItems : flavor.checksItems = true) {items : List Value}
    (each : ∀ item ∈ items, element.Settles item) :
    Field.Settles ⟨attributes, .list flavor (some element)⟩ (.list items) := by
  obtain ⟨rows, rfl⟩ := exists_map_eq each
  refine ⟨⟨.list (rows.map Settled.value), .list (rows.map Settled.stored),
    .list (rows.map Settled.settled), .list (rows.map Settled.again), ?_, ?_, ?_, ?_, rfl, ?_⟩,
    rfl⟩
  · exact map_eq_ok_iff.mpr ⟨_, mapEach_map fun row _ => row.isStored, rfl⟩
  · exact map_eq_ok_iff.mpr ⟨_, mapEach_map fun row _ => row.isRead, rfl⟩
  · exact map_eq_ok_iff.mpr ⟨_, mapEach_map fun row _ => row.isStoredAgain, rfl⟩
  · exact map_eq_ok_iff.mpr ⟨_, mapEach_map fun row _ => row.isReadAgain, rfl⟩
  · intro _
    apply check_list checksItems
    intro item inItems present
    obtain ⟨row, _, rfl⟩ := List.mem_map.mp inItems
    exact row.isValid present

theorem settles_untypedList {attributes : Attributes} {flavor : ListFlavor} {value : Value}
    {path : String} (checked : Field.check path value ⟨attributes, .list flavor none⟩ = .ok ()) :
    Field.Settles ⟨attributes, .list flavor none⟩ value := by
  obtain ⟨entries, areItems, _⟩ := map_eq_ok_iff.mp checked
  refine ⟨⟨value, value, value, value, rfl, rfl, rfl, rfl, rfl, ?_⟩, rfl⟩
  intro _ other
  exact map_eq_ok_iff.mpr ⟨entries, located_eq_ok_iff.mpr (located_eq_ok_iff.mp areItems), rfl⟩

theorem store_number {attributes : Attributes} {least greatest : Option Binary64} {value : Value}
    {number : Binary64} (isNumber : value.number? = some number) :
    Field.store value ⟨attributes, .float least greatest⟩ = .ok (.float number) := by
  cases value with
  | int integer =>
      cases isNumber
      rfl
  | float double =>
      cases isNumber
      rfl
  | _ => contradiction

theorem exists_numbers {value : Value} (isRange : value.isRange = true) :
    ∃ first second least greatest, value = .list [first, second] ∧ first.number? = some least ∧
      second.number? = some greatest ∧ least.le greatest = true := by
  unfold Value.isRange at isRange
  split at isRange
  · rename_i least greatest isPair
    obtain ⟨first, second, isList, isLeast, isGreatest⟩ := Value.exists_items_of_numberPair? isPair
    exact ⟨first, second, least, greatest, isList, isLeast, isGreatest, isRange⟩
  · contradiction

/-- The two numbers of a range are doubles once they are stored. -/
theorem settles_heatmapRange {attributes inner : Attributes} {least greatest : Option Binary64}
    {value : Value} (isRange : value.isRange = true) :
    Field.Settles ⟨attributes, .list .heatmapRange (some ⟨inner, .float least greatest⟩)⟩
      value := by
  obtain ⟨first, second, low, high, rfl, isLow, isHigh, ordered⟩ := exists_numbers isRange
  have stores : ∀ left right : Value, left.number? = some low → right.number? = some high →
      Field.store (.list [left, right])
        ⟨attributes, .list .heatmapRange (some ⟨inner, .float least greatest⟩)⟩ =
          .ok (.list [.float low, .float high]) := by
    intro left right isLeft isRight
    exact map_eq_ok_iff.mpr ⟨_, mapEach_eq_ok_iff.mpr
      (.cons (store_number isLeft) (.cons (store_number isRight) .nil)), rfl⟩
  refine ⟨⟨_, .list [.float low, .float high], .list [.float low, .float high], _,
    stores first second isLow isHigh, rfl, stores _ _ rfl rfl, rfl, rfl, ?_⟩, rfl⟩
  intro _ path
  have isOrdered : (Value.list [.float low, .float high]).isRange = true := ordered
  rw [check, ListFlavor.itemsOf, isOrdered]
  rfl

theorem isRange_of_check {attributes : Attributes} {element : Field} {path : String}
    {value : Value} (checked : Field.check path value
      ⟨attributes, .list .heatmapRange (some element)⟩ = .ok ()) : value.isRange = true := by
  obtain ⟨entries, areItems, _⟩ := bind_eq_ok_iff.mp checked
  obtain ⟨_, isEnsured, _⟩ := map_eq_ok_iff.mp (located_eq_ok_iff.mp areItems)
  exact ensure_eq_ok_iff.mp isEnsured

theorem settles_dict {attributes : Attributes} {flavor : DictFlavor} {element : Field}
    {entries : List (Value × Value)} (admitted : ∀ entry ∈ entries, flavor.Admits entry.1)
    (each : ∀ entry ∈ entries, element.Settles entry.2) :
    Field.Settles ⟨attributes, .dict flavor (some element)⟩ (.dict entries) := by
  have eachRow : ∀ entry ∈ entries, ∃ row : Value × Settled (element.store ·) (element.read ·)
      (fun settled => ∀ path, element.check path settled = .ok ()),
      (row.1, row.2.value) = entry := by
    intro entry inEntries
    obtain ⟨row, isRow⟩ := each entry inEntries
    exact ⟨(entry.1, row), Prod.ext rfl isRow⟩
  obtain ⟨rows, rfl⟩ := exists_map_eq eachRow
  have keyRead : ∀ row ∈ rows, flavor.readKey (flavor.storeKey row.1) = .ok row.1 := by
    intro row inRows
    obtain ⟨text, isStored, isRead⟩ :=
      DictFlavor.exists_keyText (admitted _ (List.mem_map_of_mem inRows))
    exact isStored ▸ isRead
  refine ⟨⟨.dict (rows.map fun row => (row.1, row.2.value)),
    .dict (rows.map fun row => (flavor.storeKey row.1, row.2.stored)),
    .dict (rows.map fun row => (row.1, row.2.settled)),
    .dict (rows.map fun row => (flavor.storeKey row.1, row.2.again)), ?_, ?_, ?_, ?_, rfl, ?_⟩,
    rfl⟩
  · refine map_eq_ok_iff.mpr ⟨_, mapEach_map fun row _ => ?_, rfl⟩
    exact map_eq_ok_iff.mpr ⟨_, row.2.isStored, rfl⟩
  · refine map_eq_ok_iff.mpr ⟨_, mapEach_map fun row inRows => ?_, rfl⟩
    exact bind_eq_ok_iff.mpr ⟨_, keyRead row inRows, map_eq_ok_iff.mpr ⟨_, row.2.isRead, rfl⟩⟩
  · refine map_eq_ok_iff.mpr ⟨_, mapEach_map fun row _ => ?_, rfl⟩
    exact map_eq_ok_iff.mpr ⟨_, row.2.isStoredAgain, rfl⟩
  · refine map_eq_ok_iff.mpr ⟨_, mapEach_map fun row inRows => ?_, rfl⟩
    exact bind_eq_ok_iff.mpr ⟨_, keyRead row inRows, map_eq_ok_iff.mpr ⟨_, row.2.isReadAgain, rfl⟩⟩
  · intro _
    apply check_dict
    · intro entry inEntries
      obtain ⟨row, inRows, rfl⟩ := List.mem_map.mp inEntries
      exact admitted (row.1, row.2.value) (List.mem_map_of_mem inRows)
    · intro entry inEntries present
      obtain ⟨row, _, rfl⟩ := List.mem_map.mp inEntries
      exact row.2.isValid present

theorem settles_untypedDict {attributes : Attributes} {flavor : DictFlavor}
    {entries : List (Value × Value)} (admitted : ∀ entry ∈ entries, flavor.Admits entry.1) :
    Field.Settles ⟨attributes, .dict flavor none⟩ (.dict entries) := by
  have isRead : Field.read (.dict (entries.map fun entry => (flavor.storeKey entry.1, entry.2)))
      ⟨attributes, .dict flavor none⟩ = .ok (.dict entries) := by
    refine map_eq_ok_iff.mpr ⟨entries.map id, mapEach_map fun entry inEntries => ?_, ?_⟩
    · obtain ⟨text, isStored, isRead⟩ := DictFlavor.exists_keyText (admitted entry inEntries)
      rw [isStored, isRead]
      rfl
    · rw [List.map_id]
  refine ⟨⟨.dict entries, _, .dict entries, _, rfl, isRead, rfl, isRead, rfl, ?_⟩, rfl⟩
  intro _ path
  exact map_eq_ok_iff.mpr ⟨entries,
    located_eq_ok_iff.mpr (DictFlavor.entriesOf_eq_ok_iff.mpr ⟨rfl, admitted⟩), rfl⟩

/-! ## Documents -/

section Documents

variable {α : Type} {attributes : Attributes} {nested : Embedded} {rows : List α}
variable (name : α → String) (value form : α → Value)

theorem store_document (each : ∀ row ∈ rows,
      storeMember (name row) (value row) nested.fields = .ok (form row)) (type : DocumentType) :
    Field.store (.document type (rows.map fun row => (name row, value row)))
        ⟨attributes, .embedded nested⟩ =
      .ok (.dict ((.string classKey, .string type.name) ::
        rows.map fun row => (.string (name row), form row))) := by
  obtain ⟨documentType, declared, displaced, fields, view⟩ := nested
  refine map_eq_ok_iff.mpr ⟨_, mapEach_map fun row inRows => ?_, rfl⟩
  exact map_eq_ok_iff.mpr ⟨form row, each row inRows, rfl⟩

theorem read_document (distinct : (rows.map name).Nodup)
    (unreserved : ∀ row ∈ rows, name row ≠ classKey)
    (each : ∀ row ∈ rows, readMember (name row) (form row) nested.fields = .ok (value row))
    (type : Value) :
    Field.read (.dict ((.string classKey, type) ::
        rows.map fun row => (.string (name row), form row))) ⟨attributes, .embedded nested⟩ =
      .ok (.document nested.documentType (rows.map fun row => (name row, value row))) := by
  obtain ⟨documentType, declared, displaced, fields, view⟩ := nested
  refine map_eq_ok_iff.mpr ⟨[] :: rows.map fun row => [(name row, value row)], ?_, ?_⟩
  · refine bind_eq_ok_iff.mpr ⟨[], rfl, map_eq_ok_iff.mpr
      ⟨_, mapEach_map fun row inRows => ?_, rfl⟩⟩
    show (if name row = classKey then Except.ok [] else _) = _
    rw [if_neg (unreserved row inRows)]
    exact map_eq_ok_iff.mpr ⟨value row, each row inRows, rfl⟩
  · rw [flatten_cons_singletons fun row => (name row, value row), Mapping.ofList_of_nodup]
    rw [Mapping.keys, List.map_map]
    exact distinct

end Documents

theorem lookup_map {α : Type} (name : α → String) (value : α → Value) (rows : List α)
    (key : String) :
    Mapping.lookup (rows.map fun row => (name row, value row)) key =
      (rows.find? fun row => name row = key).map value := by
  induction rows with
  | nil => rfl
  | cons row rest inductionHypothesis =>
      rw [List.map_cons, Mapping.lookup, inductionHypothesis]
      by_cases same : name row = key
      · rw [if_pos same, List.find?_cons_of_pos (by simpa using same), Option.map_some]
      · rw [if_neg same, List.find?_cons_of_neg (by simpa using same)]

/-- Whether the field of a name, if there is one, accepts a value. -/
def IsValidMember (fields : List (String × Field)) (name : String) (value : Value) : Prop :=
  ∀ field, Mapping.lookup fields name = some field → ∀ path, field.check path value = .ok ()

/-- A member whose value settles. -/
structure SettledMember (fields : List (String × Field)) where
  name : String
  row : Settled (storeMember name · fields) (readMember name · fields) (IsValidMember fields name)

/-- Settled members are valid where the members were, and null where they were null. -/
theorem checkMembers_settled {fields : List (String × Field)}
    (distinct : (Mapping.keys fields).Nodup) {rows : List (SettledMember fields)}
    (complete : ∀ entry ∈ fields,
      (memberOrNull (rows.map fun row => (row.name, row.row.value)) entry.1).isNull = true →
        entry.2.required = false) (path : String) :
    checkMembers path (rows.map fun row => (row.name, row.row.settled)) fields = .ok () := by
  rw [checkMembers_eq_ok_iff]
  intro entry isEntry
  have required := complete entry isEntry
  rw [memberOrNull, lookup_map] at required ⊢
  cases isFound : rows.find? fun row => row.name = entry.1 with
  | none =>
      rw [isFound] at required
      exact checkMissing_eq_ok_iff.mpr (required rfl)
  | some row =>
      rw [isFound] at required
      have named : row.name = entry.1 := by simpa using List.find?_some isFound
      show (if row.row.settled.isNull then _ else _) = _
      cases missing : row.row.settled.isNull with
      | true => exact checkMissing_eq_ok_iff.mpr (required (row.row.sameNull.symm.trans missing))
      | false =>
          exact row.row.isValid missing entry.2
            (named ▸ Mapping.lookup_of_mem distinct isEntry) _

theorem settles_document {attributes : Attributes} {nested : Embedded} {type : DocumentType}
    {members : List (String × Value)} (distinctFields : (Mapping.keys nested.fields).Nodup)
    (distinct : (members.map Prod.fst).Nodup) (unreserved : classKey ∉ members.map Prod.fst)
    (complete : ∀ entry ∈ nested.fields, (memberOrNull members entry.1).isNull = true →
      entry.2.required = false)
    (each : ∀ member ∈ members, SchemaTree.Settles (storeMember member.1 · nested.fields)
      (readMember member.1 · nested.fields) (IsValidMember nested.fields member.1) member.2) :
    Field.Settles ⟨attributes, .embedded nested⟩ (.document type members) := by
  have eachMember : ∀ member ∈ members, ∃ settled : SettledMember nested.fields,
      (settled.name, settled.row.value) = member := by
    intro member inMembers
    obtain ⟨row, isRow⟩ := each member inMembers
    exact ⟨⟨member.1, row⟩, Prod.ext rfl isRow⟩
  obtain ⟨rows, rfl⟩ := exists_map_eq eachMember
  rw [List.map_map] at distinct unreserved
  have plain : ∀ row ∈ rows, row.name ≠ classKey := by
    intro row inRows same
    exact unreserved (List.mem_map.mpr ⟨row, inRows, same⟩)
  refine ⟨⟨.document type (rows.map fun row => (row.name, row.row.value)), _,
    .document nested.documentType (rows.map fun row => (row.name, row.row.settled)), _,
    store_document SettledMember.name (fun row => row.row.value) (fun row => row.row.stored)
      (fun row _ => row.row.isStored) type,
    read_document SettledMember.name (fun row => row.row.settled) (fun row => row.row.stored)
      distinct plain (fun row _ => row.row.isRead) _,
    store_document SettledMember.name (fun row => row.row.settled) (fun row => row.row.again)
      (fun row _ => row.row.isStoredAgain) nested.documentType,
    read_document SettledMember.name (fun row => row.row.settled) (fun row => row.row.again)
      distinct plain (fun row _ => row.row.isReadAgain) _, rfl, ?_⟩, rfl⟩
  intro _ path
  have checked := checkMembers_settled distinctFields complete path
  obtain ⟨documentType, declared, displaced, fields, view⟩ := nested
  have isDocument : ∀ others : List (String × Value),
      (Value.document documentType others).membersOf documentType = .ok others := by
    intro others
    rw [Value.membersOf, DocumentType.isSubclassOf_self, if_pos rfl]
  exact bind_eq_ok_iff.mpr ⟨_, located_eq_ok_iff.mpr (isDocument _), checked⟩

theorem members_of_check {attributes : Attributes} {nested : Embedded} {path : String}
    {value : Value} (checked : Field.check path value ⟨attributes, .embedded nested⟩ = .ok ()) :
    ∃ type members, value = .document type members ∧ ∀ entry ∈ nested.fields,
      (if (memberOrNull members entry.1).isNull then
          entry.2.checkMissing (Path.below path entry.1)
        else entry.2.check (Path.below path entry.1) (memberOrNull members entry.1)) = .ok () := by
  obtain ⟨documentType, declared, displaced, fields, view⟩ := nested
  obtain ⟨members, isDocument, passed⟩ := bind_eq_ok_iff.mp checked
  have isMembers := located_eq_ok_iff.mp isDocument
  cases value with
  | document found others =>
      rw [Value.membersOf] at isMembers
      by_cases isSubclass : found.isSubclassOf documentType = true
      · rw [if_pos isSubclass, Except.ok.injEq] at isMembers
        exact ⟨found, others, rfl, checkMembers_eq_ok_iff.mp (isMembers ▸ passed)⟩
      · rw [if_neg isSubclass] at isMembers
        contradiction
  | _ => contradiction

theorem storable_document {attributes : Attributes} {nested : Embedded} {type : DocumentType}
    {members : List (String × Value)}
    (storable : Field.Storable (.document type members) ⟨attributes, .embedded nested⟩) :
    (members.map Prod.fst).Nodup ∧ classKey ∉ members.map Prod.fst ∧
      ∀ entry ∈ nested.fields, ∀ value, Mapping.lookup members entry.1 = some value →
        entry.2.Storable value := by
  obtain ⟨documentType, declared, displaced, fields, view⟩ := nested
  obtain ⟨distinct, unreserved, each⟩ := storable type members rfl
  exact ⟨distinct, unreserved, storableMembers_iff.mp each⟩

theorem settles_without_field {fields : List (String × Field)} {name : String}
    (absent : Mapping.lookup fields name = none) (value : Value) :
    SchemaTree.Settles (storeMember name · fields) (readMember name · fields)
      (IsValidMember fields name) value := by
  have isStored := storeMember_of_none absent value
  have isRead := readMember_of_none absent value
  refine ⟨⟨value, value, value, value, isStored, isRead, isStored, isRead, rfl, ?_⟩, rfl⟩
  intro _ field found
  rw [absent] at found
  contradiction

theorem settles_member {fields : List (String × Field)} {name : String} {field : Field}
    (found : Mapping.lookup fields name = some field) {value : Value}
    (settles : field.Settles value) :
    SchemaTree.Settles (storeMember name · fields) (readMember name · fields)
      (IsValidMember fields name) value := by
  obtain ⟨row, rfl⟩ := settles
  refine ⟨⟨row.value, row.stored, row.settled, row.again, ?_, ?_, ?_, ?_, row.sameNull, ?_⟩, rfl⟩
  · exact (storeMember_of_some found _).trans row.isStored
  · exact (readMember_of_some found _).trans row.isRead
  · exact (storeMember_of_some found _).trans row.isStoredAgain
  · exact (readMember_of_some found _).trans row.isReadAgain
  · intro present other isOther
    rw [found, Option.some.injEq] at isOther
    exact isOther ▸ row.isValid present

/-! ## All fields -/

theorem settles_of_accepted {field : Field} {value : Value} (accepted : field.Accepts value)
    (settles : value.isNull = false → ∀ path, field.check path value = .ok () →
      field.Settles value) : field.Settles value := by
  apply settles_of_present
  intro present
  obtain ⟨path, checked⟩ := accepted present
  exact settles present path checked

theorem settles_checkedList {attributes : Attributes} {flavor : ListFlavor} {element : Field}
    (fits : flavor.Fits (some element)) (supported : flavor ≠ .frameSupport) {value : Value}
    {path : String}
    (checked : Field.check path value ⟨attributes, .list flavor (some element)⟩ = .ok ())
    (each : ∀ items, value = .list items → ∀ item ∈ items, element.Accepts item →
      element.Settles item) : Field.Settles ⟨attributes, .list flavor (some element)⟩ value := by
  cases flavor with
  | keypoints => exact fits.elim
  | polylinePoints => exact fits.elim
  | frameSupport => exact absurd rfl supported
  | heatmapRange =>
      obtain ⟨inner, kind⟩ := element
      cases kind with
      | float least greatest => exact settles_heatmapRange (isRange_of_check checked)
      | _ => exact fits.elim
  | _ =>
      obtain ⟨items, rfl, accepted⟩ := accepts_of_check_list rfl checked
      apply settles_list rfl
      intro item inItems
      exact each items rfl item inItems (accepted item inItems)

theorem settles_checkedDocument {attributes : Attributes} {nested : Embedded}
    (consistent : nested.Consistent) {value : Value} {path : String}
    (checked : Field.check path value ⟨attributes, .embedded nested⟩ = .ok ())
    (storable : Field.Storable value ⟨attributes, .embedded nested⟩)
    (each : ∀ name field, Mapping.lookup nested.fields name = some field → ∀ member,
      field.Accepts member → field.Storable member → field.Settles member) :
    Field.Settles ⟨attributes, .embedded nested⟩ value := by
  obtain ⟨type, members, rfl, passed⟩ := members_of_check checked
  obtain ⟨distinct, unreserved, storableMembers⟩ := storable_document storable
  apply settles_document consistent.distinct distinct unreserved
  · intro entry isEntry missing
    have required := passed entry isEntry
    rw [if_pos missing] at required
    exact checkMissing_eq_ok_iff.mp required
  · intro member inMembers
    have isValue := Mapping.lookup_of_mem distinct inMembers
    cases found : Mapping.lookup nested.fields member.1 with
    | none => exact settles_without_field found member.2
    | some field =>
        have isEntry := Mapping.mem_of_lookup found
        apply settles_member found
        apply each member.1 field found
        · intro present
          have checkedMember := passed _ isEntry
          rw [memberOrNull, isValue, Option.getD_some, present] at checkedMember
          exact ⟨_, checkedMember⟩
        · exact storableMembers _ isEntry member.2 isValue

/-- What a coherent field without frame supports accepts settles. -/
theorem Coherent.settles {field : Field} (coherent : field.Coherent)
    (free : field.Everywhere fun inner => inner.type ≠ .frameSupport) {value : Value}
    (accepted : field.Accepts value) (storable : field.Storable value) : field.Settles value := by
  induction coherent generalizing value with
  | scalar wellFormed isScalar =>
      refine settles_of_accepted accepted fun present path checked => ?_
      rw [check_scalar isScalar, located_eq_ok_iff] at checked
      exact settles_scalar isScalar present
        (Kind.settles isScalar present checked (storable_scalar isScalar storable))
  | untypedList wellFormed fits =>
      exact settles_of_accepted accepted fun _ path checked => settles_untypedList checked
  | @list attributes flavor element wellFormed fits named coherent inductionHypothesis =>
      refine settles_of_accepted accepted fun _ path checked => ?_
      have supported : flavor ≠ .frameSupport := by
        rintro rfl
        exact free.here rfl
      apply settles_checkedList fits supported checked
      intro items isList item inItems itemAccepted
      exact inductionHypothesis (free.element rfl) itemAccepted
        (storable items isList item inItems)
  | untypedDict flavor wellFormed =>
      refine settles_of_accepted accepted fun _ path checked => ?_
      obtain ⟨entries, areEntries, _⟩ := map_eq_ok_iff.mp checked
      obtain ⟨rfl, admitted⟩ :=
        DictFlavor.entriesOf_eq_ok_iff.mp (located_eq_ok_iff.mp areEntries)
      exact settles_untypedDict admitted
  | dict flavor wellFormed named coherent inductionHypothesis =>
      refine settles_of_accepted accepted fun _ path checked => ?_
      obtain ⟨entries, rfl, admitted, each⟩ := accepts_of_check_dict checked
      apply settles_dict admitted
      intro entry inEntries
      exact inductionHypothesis (free.element rfl) (each entry inEntries)
        (storable entries rfl entry inEntries)
  | embedded wellFormed unviewed consistent each inductionHypothesis =>
      refine settles_of_accepted accepted fun _ path checked => ?_
      apply settles_checkedDocument consistent checked storable
      intro name field found member memberAccepted memberStorable
      exact inductionHypothesis name field found (free.member rfl (Mapping.mem_of_lookup found))
        memberAccepted memberStorable

/-- A value that an assembled field without frame supports accepts is stored and read back as a
value that the field accepts too, and that further passages through a store leave as it is. -/
theorem Assembled.settles_in_store {field : Field} (assembled : field.Assembled)
    (free : field.Everywhere fun inner => inner.type ≠ .frameSupport) {value : Value}
    (valid : field.validate value = .ok ()) (storable : field.Storable value) :
    ∃ stored settled again, field.store value = .ok stored ∧ field.read stored = .ok settled ∧
      field.validate settled = .ok () ∧ field.store settled = .ok again ∧
      field.read again = .ok settled := by
  have accepted : field.Accepts value := by
    intro present
    rw [validate, validateAt, present] at valid
    exact ⟨_, valid⟩
  obtain ⟨row, rfl⟩ := assembled.coherent.settles free accepted storable
  refine ⟨row.stored, row.settled, row.again, row.isStored, row.isRead, ?_, row.isStoredAgain,
    row.isReadAgain⟩
  rw [validate, validateAt] at valid ⊢
  -- Whether a field may be null does not depend on the value.
  cases missing : row.settled.isNull with
  | true =>
      rw [← row.sameNull, missing] at valid
      exact valid
  | false => exact row.isValid missing _

end Field

/-- A type with an identifier and a range. -/
def markType : DocumentType :=
  ⟨"Mark", none, [("id", .objectId "id"), ("range", .heatmapRange "range")]⟩

/-- A type that derives from it. -/
def trackType : DocumentType :=
  ⟨"Track", some markType, markType.fields⟩

/-- Lists of marks. -/
def markList : Field :=
  .list "marks" (some (.embedded "marks" markType))

/-- A track among marks, with an identifier in upper case and whole numbers, and a missing one. -/
def marks : Value :=
  .list [.document trackType [("id", .string "0123456789ABCDEF01234567"),
    ("range", .list [.int 1, .int 2]), ("row", .list [.int 3])], .null]

theorem settles_marks :
    (markList.Assembled ∧ (markList.Everywhere fun inner => inner.type ≠ .frameSupport) ∧
        markList.validate marks = .ok () ∧ markList.Storable marks) ∧
      ∃ stored settled again, markList.store marks = .ok stored ∧
        markList.read stored = .ok settled ∧ markList.validate settled = .ok () ∧
        markList.store settled = .ok again ∧ markList.read again = .ok settled := by
  have isMark : markType.Assembled := by
    have built : DocumentType.build "Mark" none [.objectId "id", .heatmapRange "range"] =
        .ok markType := rfl
    refine .build built (fun _ isParent => nomatch isParent) ?_
    intro inner member
    rcases List.mem_pair.mp member with rfl | rfl
    · exact .scalar "id" rfl
    · exact .heatmapRange "range"
  have assembled : markList.Assembled := by
    refine .list "marks" ?_
    intro inner isElement
    cases isElement
    exact .embedded "marks" isMark
  have free : markList.Everywhere fun inner => inner.type ≠ .frameSupport :=
    ⟨by decide, by decide, ⟨by decide, trivial⟩, ⟨by decide, by decide, trivial⟩, trivial⟩
  have valid : markList.validate marks = .ok () := rfl
  have storable : markList.Storable marks := by
    intro items same item inItems
    cases same
    rcases List.mem_pair.mp inItems with rfl | rfl
    · intro type members isDocument
      cases isDocument
      refine ⟨by decide, by decide, ?_, ?_, trivial⟩
      · intro value isValue
        trivial
      · intro value isValue numbers areNumbers number inNumbers
        trivial
    · intro type members isDocument
      contradiction
  exact ⟨⟨assembled, free, valid, storable⟩, assembled.settles_in_store free valid storable⟩

end SchemaTree
