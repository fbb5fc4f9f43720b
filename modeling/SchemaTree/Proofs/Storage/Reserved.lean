import SchemaTree.Field.Constructors
import SchemaTree.Proofs.Mapping
import SchemaTree.Proofs.Storage.Members
import SchemaTree.Proofs.Value.Stability

/-!
Names that storage and exchange keep for themselves.  A stored document has its class under
`_cls`, where reading leaves out every entry and takes the type of the field instead; so a document
comes back exactly if it has that type and no member of that name.  JSON data have tags for what
they lack; so a dict comes back exactly if it is not a tag and a text alone.
-/

namespace SchemaTree

/-! ## Documents -/

namespace Field

variable {attributes : Attributes} {nested : Embedded}

/-- Stored members are entries under the same names. -/
theorem exists_entries_of_stored {fields : List (String × Field)}
    {members : List (String × Value)} {forms : List (Value × Value)}
    (areStored : List.Forall₂ (fun member form => (storeMember member.1 member.2 fields).map
      (fun stored => (Value.string member.1, stored)) = .ok form) members forms) :
    ∃ entries : List (String × Value),
      forms = entries.map (fun entry => (.string entry.1, entry.2)) ∧
        entries.map Prod.fst = members.map Prod.fst := by
  induction areStored with
  | nil => exact ⟨[], rfl, rfl⟩
  | @cons member _ _ _ first _ inductionHypothesis =>
      obtain ⟨form, _, rfl⟩ := map_eq_ok_iff.mp first
      obtain ⟨entries, rfl, names⟩ := inductionHypothesis
      exact ⟨(member.1, form) :: entries, rfl, congrArg (member.1 :: ·) names⟩

theorem exists_stored_members {type : DocumentType} {members : List (String × Value)}
    {stored : Value} (isStored : Field.store (.document type members)
      ⟨attributes, .embedded nested⟩ = .ok stored) :
    ∃ entries, stored = .ofMembers ((classKey, .string type.name) :: entries) ∧
      entries.map Prod.fst = members.map Prod.fst := by
  obtain ⟨documentType, declared, displaced, fields, view⟩ := nested
  obtain ⟨forms, areStored, rfl⟩ := map_eq_ok_iff.mp isStored
  obtain ⟨entries, rfl, names⟩ := exists_entries_of_stored (mapEach_eq_ok_iff.mp areStored)
  exact ⟨entries, rfl, names⟩

/-- Entries are read as members under the same names, but where the class stands. -/
theorem names_of_read {fields : List (String × Field)} {entries : List (String × Value)}
    {groups : List (List (String × Value))}
    (areRead : List.Forall₂ (fun entry group =>
      (if entry.1 = classKey then .ok []
        else (readMember entry.1 entry.2 fields).map fun item => [(entry.1, item)]) = .ok group)
      entries groups) :
    groups.flatten.map Prod.fst = (entries.map Prod.fst).filter (· ≠ classKey) := by
  induction areRead with
  | nil => rfl
  | cons first _ inductionHypothesis =>
      rw [List.flatten_cons, List.map_append, inductionHypothesis]
      split at first
      · rename_i isClass
        cases first
        simp [isClass]
      · rename_i isOther
        obtain ⟨item, _, rfl⟩ := map_eq_ok_iff.mp first
        simp [isOther]

/-- What is read has the type of the field, and no member where the class stands. -/
theorem exists_read_members {entries : List (String × Value)} {result : Value}
    (distinct : ((entries.map Prod.fst).filter (· ≠ classKey)).Nodup)
    (isRead : Field.read (.ofMembers entries) ⟨attributes, .embedded nested⟩ = .ok result) :
    ∃ found, result = .document nested.documentType found ∧
      found.map Prod.fst = (entries.map Prod.fst).filter (· ≠ classKey) := by
  obtain ⟨documentType, declared, displaced, fields, view⟩ := nested
  obtain ⟨groups, areRead, rfl⟩ := map_eq_ok_iff.mp isRead
  rw [mapEach_eq_ok_iff, List.forall₂_map_left_iff] at areRead
  have names := names_of_read areRead
  refine ⟨groups.flatten, ?_, names⟩
  rw [Mapping.ofList_of_nodup]
  rw [Mapping.keys, names]
  exact distinct

/-- A document that was stored and read has the type of the field and all members but one under
the name of the class.  So its type has the same name as before, and its members have the same
names, exactly if the document was of a type of that name and had no such member. -/
theorem returned_document {type : DocumentType} {members : List (String × Value)}
    {stored result : Value} (distinct : (members.map Prod.fst).Nodup)
    (isStored : Field.store (.document type members) ⟨attributes, .embedded nested⟩ = .ok stored)
    (isRead : Field.read stored ⟨attributes, .embedded nested⟩ = .ok result) :
    ∃ found, result = .document nested.documentType found ∧
      found.map Prod.fst = (members.map Prod.fst).filter (· ≠ classKey) ∧
      (nested.documentType.name = type.name ∧
          (∀ name, name ∈ found.map Prod.fst ↔ name ∈ members.map Prod.fst) ↔
        nested.documentType.name = type.name ∧ classKey ∉ members.map Prod.fst) := by
  obtain ⟨entries, rfl, sameNames⟩ := exists_stored_members isStored
  have names : (((classKey, Value.string type.name) :: entries).map Prod.fst).filter
      (· ≠ classKey) = (members.map Prod.fst).filter (· ≠ classKey) := by
    rw [List.map_cons, sameNames]
    simp
  obtain ⟨found, rfl, isFound⟩ := exists_read_members (names ▸ distinct.filter _) isRead
  rw [names] at isFound
  refine ⟨found, rfl, isFound, and_congr_right fun _ => ?_⟩
  rw [isFound]
  constructor
  · intro same isMember
    have isKept := (same classKey).mpr isMember
    simp at isKept
  · intro absent name
    rw [List.mem_filter]
    constructor
    · exact And.left
    · intro isMember
      have different : name ≠ classKey := fun isClass => absent (isClass ▸ isMember)
      exact ⟨isMember, decide_eq_true different⟩

end Field

def carType : DocumentType :=
  ⟨"Car", none, [("plate", .string "plate")]⟩

def taxiType : DocumentType :=
  ⟨"Taxi", some carType, [("plate", .string "plate"), ("meter", .int "meter")]⟩

def carField : Field :=
  .embedded "car" carType

/-- A car with a member that has no field. -/
def tracedCar : Value :=
  .document carType [("plate", .string "C-1"), ("seen", .int 3)]

theorem returned_document_tracedCar :
    ∃ stored result found, carField.store tracedCar = .ok stored ∧
      carField.read stored = .ok result ∧ result = .document carType found ∧
        found.map Prod.fst = ["plate", "seen"] := by
  have distinct : ([("plate", .string "C-1"), ("seen", .int 3)] : List (String × Value)).map
      Prod.fst |>.Nodup := by decide
  have isStored : carField.store tracedCar = .ok (.ofMembers
      [("_cls", .string "Car"), ("plate", .string "C-1"), ("seen", .int 3)]) := rfl
  obtain ⟨found, isDocument, names, _⟩ := Field.returned_document distinct isStored rfl
  exact ⟨_, _, found, isStored, rfl, isDocument, names⟩

/-- A taxi where cars are expected comes back as a car, and a member comes back from no place
where the class stands. -/
theorem class_and_member_lost_car :
    (carField.validate (.document taxiType [("plate", .string "T-1")]) = .ok () ∧
      ∃ stored, carField.store (.document taxiType [("plate", .string "T-1")]) = .ok stored ∧
        carField.read stored = .ok (.document carType [("plate", .string "T-1")])) ∧
      carType.name ≠ taxiType.name ∧
      (carField.validate (.document carType [("plate", .string "T-1"), ("_cls", .string "van")]) =
          .ok () ∧
        ∃ stored, carField.store
            (.document carType [("plate", .string "T-1"), ("_cls", .string "van")]) = .ok stored ∧
          carField.read stored = .ok (.document carType [("plate", .string "T-1")])) :=
  ⟨⟨rfl, _, rfl, rfl⟩, by decide, rfl, _, rfl, rfl⟩

/-! ## Dicts -/

namespace Value

/-- Values without values inside that JSON has a form of its own for. -/
inductive Native : Value → Prop
  | null : Native .null
  | bool (truth : Bool) : Native (.bool truth)
  | int (number : Int64) : Native (.int number)
  | float {number : Binary64} (finite : number.isFinite = true) : Native (.float number)
  | string (text : String) : Native (.string text)

theorem Native.exchanges {value : Value} (native : value.Native) : value.Exchanges value := by
  cases native with
  | null => exact exchanges_null
  | bool truth => exact exchanges_bool truth
  | int number => exact exchanges_int number
  | float finite => exact exchanges_float finite
  | string text => exact exchanges_string text

theorem exists_tagReader? {key : String} (isTag : key ∈ tags) :
    ∃ reader, tagReader? key = some reader := by
  simp only [tags, List.mem_cons, List.not_mem_nil, or_false] at isTag
  obtain rfl | rfl | rfl | rfl := isTag <;> exact ⟨_, rfl⟩

theorem untagged_iff {members : List (String × Value)} :
    Untagged members ↔ ∀ key text, members = [(key, .string text)] → key ∉ tags := by
  constructor
  · intro untagged key text single isTag
    obtain ⟨reader, isReader⟩ := exists_tagReader? isTag
    have unread := untagged key text single
    rw [isReader] at unread
    contradiction
  · intro untagged key text single
    exact tagReader?_eq_none (untagged key text single)

/-- A tag and its text are read as what they stand for, and never as a dict. -/
theorem untagged_of_returned {members : List (String × Value)} {json : Json}
    {entries : List (Value × Value)} (written : (ofMembers members).toJson = .ok json)
    (returned : ofJson json = .ok (.dict entries)) : Untagged members := by
  intro tag text single
  subst single
  cases isTag : tagReader? tag with
  | none => rfl
  | some reader =>
      have isTagged : json = tagged tag text := (Except.ok.inj written).symm
      have read : ofJson (tagged tag text) = reader text := by
        rw [tagged, ofJson, ofTagged?, isTag]
        rfl
      rw [isTagged, read] at returned
      cases fromTag_of_tagReader? isTag returned

theorem store_ofMembers (attributes : Attributes) (members : List (String × Value)) :
    Field.validate ⟨attributes, .dict .plain none⟩ (ofMembers members) = .ok () ∧
      Field.store (ofMembers members) ⟨attributes, .dict .plain none⟩ =
        .ok (ofMembers members) := by
  constructor
  · show Field.check _ _ _ = _
    rw [Field.check, ofMembers, DictFlavor.entriesOf_eq_ok_iff.mpr ⟨rfl, ?_⟩]
    · rfl
    · intro entry inEntries
      obtain ⟨member, _, rfl⟩ := List.mem_map.mp inEntries
      rfl
  · rw [ofMembers, Field.store, List.map_map]
    rfl

/-- A dict with string keys, whose values JSON has forms of its own for, is stored as it is and has
an exchange form, and comes back with the same entries exactly if it is not a tag and a text
alone. -/
theorem native_dict_returns_iff {members : List (String × Value)}
    (distinct : (members.map Prod.fst).Nodup) (native : ∀ member ∈ members, member.2.Native) :
    (∀ attributes : Attributes,
        Field.validate ⟨attributes, .dict .plain none⟩ (ofMembers members) = .ok () ∧
          Field.store (ofMembers members) ⟨attributes, .dict .plain none⟩ =
            .ok (ofMembers members)) ∧
      ∃ json, (ofMembers members).toJson = .ok json ∧
        ((∃ entries, ofJson json = .ok (.dict entries) ∧
            entries.Perm (members.map fun member => (.string member.1, member.2))) ↔
          ∀ key text, members = [(key, .string text)] → key ∉ tags) := by
  have related : List.Forall₂ (fun member other => member.1 = other.1 ∧
      member.2.Exchanges other.2) members members :=
    List.forall₂_same.mpr fun member isMember => ⟨rfl, (native member isMember).exchanges⟩
  obtain ⟨written, writes, _⟩ := exists_written related
  refine ⟨fun attributes => store_ofMembers attributes members, .ofMembers written,
    writes.toJson_eq, ?_⟩
  rw [← untagged_iff]
  constructor
  · rintro ⟨entries, returned, _⟩
    exact untagged_of_returned writes.toJson_eq returned
  · intro untagged
    obtain ⟨arranged, same, json, isWritten, isRead⟩ :=
      exchanges_ofMembers related distinct untagged
    obtain rfl : Json.ofMembers written = json :=
      Except.ok.inj (writes.toJson_eq.symm.trans isWritten)
    exact ⟨_, isRead, same.map _⟩

/-- A tag beside other keys is a key like them. -/
theorem native_dict_returns_iff_reminder :
    let reminder : List (String × Value) :=
      [("note", .string "call"), ("$date", .string "tomorrow"), ("done", .bool false)]
    ∃ json, (ofMembers reminder).toJson = .ok json ∧
      ∃ entries, ofJson json = .ok (.dict entries) ∧
        entries.Perm (reminder.map fun member => (.string member.1, member.2)) := by
  intro reminder
  have native : ∀ member ∈ reminder, member.2.Native := by
    simp only [reminder, List.forall_mem_cons, List.not_mem_nil, false_implies, implies_true,
      and_true]
    exact ⟨.string _, .string _, .bool _⟩
  obtain ⟨_, json, written, returns⟩ := native_dict_returns_iff (by decide) native
  exact ⟨json, written, returns.mpr (by simp [reminder])⟩

/-- A dict field stores a text under a tag, which then does not read as a moment; and what reads as
an identifier comes back as one. -/
theorem tag_alone_lost :
    (Field.validate (.dict "notes" none) (ofMembers [("$date", .string "tomorrow")]) = .ok () ∧
        Field.store (ofMembers [("$date", .string "tomorrow")]) (.dict "notes" none) =
          .ok (ofMembers [("$date", .string "tomorrow")]) ∧
        (ofMembers [("$date", .string "tomorrow")]).toJson = .ok (tagged "$date" "tomorrow") ∧
        ofJson (tagged "$date" "tomorrow") = .error (.codec (.date "tomorrow"))) ∧
      ∃ id, (ofMembers [("$oid", .string "5f8d0d55b54764421b7156c1")]).toJson =
          .ok (tagged "$oid" "5f8d0d55b54764421b7156c1") ∧
        ofJson (tagged "$oid" "5f8d0d55b54764421b7156c1") = .ok (.objectId id) := by
  refine ⟨⟨rfl, rfl, rfl, rfl⟩, _, rfl, rfl⟩

end Value

end SchemaTree
