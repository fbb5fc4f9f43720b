import SchemaTree.Field.Constructors
import SchemaTree.Proofs.Mapping
import SchemaTree.Proofs.Storage.Members
import SchemaTree.Proofs.Value.Exchange

/-!
Values that go to a store as JSON data and come back.  Each kind of field has a form in which it
gives values out; a value in that form is stored, written, read and given out again as the same
value, but for the order of dict entries and document members.
-/

namespace SchemaTree

/-- Values that are the same but for the order of entries and members, at any depth. -/
inductive Value.Alike : Value → Value → Prop
  | refl (value : Value) : Alike value value
  | list {items others : List Value} (each : List.Forall₂ Alike items others) :
      Alike (.list items) (.list others)
  | dict {entries others arranged : List (Value × Value)}
      (keys : entries.map Prod.fst = others.map Prod.fst)
      (each : List.Forall₂ Alike (entries.map Prod.snd) (others.map Prod.snd))
      (same : arranged.Perm others) : Alike (.dict entries) (.dict arranged)
  | document {type : DocumentType} {members others arranged : List (String × Value)}
      (names : members.map Prod.fst = others.map Prod.fst)
      (each : List.Forall₂ Alike (members.map Prod.snd) (others.map Prod.snd))
      (same : arranged.Perm others) : Alike (.document type members) (.document type arranged)

/-- Entries that a dict of a flavor can have: distinct keys of the right type, and not a tag
alone. -/
structure DictFlavor.Entries (flavor : DictFlavor) (entries : List (Value × Value)) : Prop where
  admitted : ∀ entry ∈ entries, flavor.Admits entry.1
  distinct : (entries.map Prod.fst).Nodup
  untagged : ∀ tag value, entries = [(.string tag, value)] → Value.tagReader? tag = none

/-- The form in which a field gives a value out. -/
inductive Field.ReadForm : Field → Value → Prop
  | null (field : Field) : ReadForm field .null
  | objectId (attributes : Attributes) {text : String} (length : text.toList.length = 24)
      (digits : ∀ digit ∈ text.toList, Text.Hex.isLowerDigit digit = true) :
      ReadForm ⟨attributes, .objectId⟩ (.string text)
  | uuid (attributes : Attributes) (id : Uuid) : ReadForm ⟨attributes, .uuid⟩ (.uuid id)
  | boolean (attributes : Attributes) (truth : Bool) :
      ReadForm ⟨attributes, .boolean⟩ (.bool truth)
  | int (attributes : Attributes) (number : Int64) : ReadForm ⟨attributes, .int⟩ (.int number)
  | frameNumber (attributes : Attributes) (number : Int64) :
      ReadForm ⟨attributes, .frameNumber⟩ (.int number)
  | float (attributes : Attributes) (least greatest : Option Binary64) {number : Binary64}
      (finite : number.isFinite = true) :
      ReadForm ⟨attributes, .float least greatest⟩ (.float number)
  | string (attributes : Attributes) (text : String) :
      ReadForm ⟨attributes, .string⟩ (.string text)
  | date (attributes : Attributes) {day : Calendar.Date} (notBefore : 0 ≤ day.year)
      (notAfter : day.year ≤ 9999) : ReadForm ⟨attributes, .date⟩ (.date day)
  | dateTime (attributes : Attributes) {text : String} {moment : Calendar.DateTime}
      (parsed : Calendar.Rfc3339.read? text = some moment) :
      ReadForm ⟨attributes, .dateTime⟩ (.dateTime moment)
  | untypedList (attributes : Attributes) (flavor : ListFlavor) {items : List Value}
      (each : ∀ item ∈ items, item.Loaded) :
      ReadForm ⟨attributes, .list flavor none⟩ (.list items)
  | list (attributes : Attributes) (flavor : ListFlavor) {element : Field} {items : List Value}
      (each : ∀ item ∈ items, ReadForm element item) :
      ReadForm ⟨attributes, .list flavor (some element)⟩ (.list items)
  | untypedDict (attributes : Attributes) {flavor : DictFlavor} {entries : List (Value × Value)}
      (keyed : flavor.Entries entries) (each : ∀ entry ∈ entries, entry.2.Loaded) :
      ReadForm ⟨attributes, .dict flavor none⟩ (.dict entries)
  | dict (attributes : Attributes) {flavor : DictFlavor} {element : Field}
      {entries : List (Value × Value)} (keyed : flavor.Entries entries)
      (each : ∀ entry ∈ entries, ReadForm element entry.2) :
      ReadForm ⟨attributes, .dict flavor (some element)⟩ (.dict entries)
  | geo (attributes : Attributes) (geometry : GeoKind) {items : List Value}
      (each : ∀ item ∈ items, item.Loaded) :
      ReadForm ⟨attributes, .geo geometry⟩ (.list items)
  | vector (attributes : Attributes) {array : NumericArray}
      (few : array.dimensions < twoTo 32) : ReadForm ⟨attributes, .vector⟩ (.array array)
  | array (attributes : Attributes) {array : NumericArray}
      (few : array.dimensions < twoTo 32) : ReadForm ⟨attributes, .array⟩ (.array array)
  /-- A document of the field's own type; members without a field are untyped. -/
  | document (attributes : Attributes) (nested : Embedded) {members : List (String × Value)}
      (distinct : (members.map Prod.fst).Nodup)
      (unreserved : ∀ member ∈ members, member.1 ≠ classKey)
      (typed : ∀ member ∈ members, ∀ field,
        Mapping.lookup nested.fields member.1 = some field → ReadForm field member.2)
      (untyped : ∀ member ∈ members,
        Mapping.lookup nested.fields member.1 = none → member.2.Loaded) :
      ReadForm ⟨attributes, .embedded nested⟩ (.document nested.documentType members)

/-- A value that is stored, written, read and given out again alike. -/
def Passes (store read : Value → Except Error Value) (value : Value) : Prop :=
  ∃ stored loaded result, store value = .ok stored ∧ stored.Exchanges loaded ∧
    read loaded = .ok result ∧ value.Alike result

theorem passes_of_exchanges {store read : Value → Except Error Value} {value stored : Value}
    (isStored : store value = .ok stored) (exchanges : stored.Exchanges stored)
    (isRead : read stored = .ok value) : Passes store read value :=
  ⟨stored, stored, value, isStored, exchanges, isRead, .refl value⟩

theorem passes_of_loaded {value : Value} (loaded : value.Loaded) :
    Passes Except.ok Except.ok value :=
  passes_of_exchanges rfl (Value.exchanges_of_loaded loaded) rfl

/-! ## Keys of dicts -/

/-- The text of an integer is no tag, since tags do not read as integers. -/
theorem Value.tagReader?_showInt (number : Int64) :
    tagReader? (Text.showInt number.toInt) = none := by
  have no_tag : ∀ tag : String, Text.readInt64? tag.toList = none →
      Text.showInt number.toInt ≠ tag := by
    intro tag unread same
    rw [← same, Text.readInt64?_showInt] at unread
    contradiction
  unfold tagReader?
  rw [if_neg (no_tag "$binary" (by decide)), if_neg (no_tag "$date" (by decide)),
    if_neg (no_tag "$oid" (by decide)), if_neg (no_tag "$uuid" (by decide))]

theorem DictFlavor.IsKeyText.tagReader?_eq {flavor : DictFlavor} {key value : Value}
    {text : String} (isKeyText : flavor.IsKeyText key text)
    (keyed : flavor.Entries [(key, value)]) : Value.tagReader? text = none := by
  have admitted : flavor.Admits key := keyed.admitted _ List.mem_cons_self
  cases key with
  | string other =>
      have same : other = text := Value.string.inj isKeyText.1
      exact keyed.untagged text value (by rw [same])
  | int number =>
      have integral : flavor.hasIntKeys = true := admitted
      have same : Text.showInt number.toInt = text := by
        have stored := isKeyText.1
        rw [storeKey, if_pos integral] at stored
        exact Value.string.inj stored
      rw [← same, Value.tagReader?_showInt]
  | _ => exact admitted.elim

/-! ## Rows of values -/

/-- An entry under way, with all the forms that its value takes. -/
structure Passage {κ : Type} (IsKeyText : κ → String → Prop)
    (store read : String → Value → Except Error Value) where
  key : κ
  text : String
  value : Value
  stored : Value
  loaded : Value
  result : Value
  isKeyText : IsKeyText key text
  isStored : store text value = .ok stored
  exchanges : stored.Exchanges loaded
  isRead : read text loaded = .ok result
  alike : value.Alike result

section Passages

variable {κ : Type} {IsKeyText : κ → String → Prop}
variable {store read : String → Value → Except Error Value}

theorem exists_passages (IsKeyText : κ → String → Prop)
    (store read : String → Value → Except Error Value) {entries : List (κ × Value)}
    (each : ∀ entry ∈ entries, ∃ text, IsKeyText entry.1 text ∧
      Passes (store text) (read text) entry.2) :
    ∃ passages : List (Passage IsKeyText store read),
      passages.map (fun passage => (passage.key, passage.value)) = entries := by
  apply exists_map_eq
  intro entry inEntries
  obtain ⟨text, isKeyText, stored, loaded, result, isStored, exchanges, isRead, alike⟩ :=
    each entry inEntries
  exact ⟨⟨entry.1, text, entry.2, stored, loaded, result, isKeyText, isStored, exchanges, isRead,
    alike⟩, rfl⟩

theorem forall₂_passages {α β : Type} {relation : α → β → Prop}
    {left : Passage IsKeyText store read → α} {right : Passage IsKeyText store read → β}
    (each : ∀ passage, relation (left passage) (right passage))
    (passages : List (Passage IsKeyText store read)) :
    List.Forall₂ relation (passages.map left) (passages.map right) := by
  rw [List.forall₂_map_left_iff, List.forall₂_map_right_iff, List.forall₂_same]
  intro passage _
  exact each passage

theorem nodup_texts {passages : List (Passage IsKeyText store read)}
    (determined : ∀ key other text, IsKeyText key text → IsKeyText other text → key = other)
    (distinct : (passages.map Passage.key).Nodup) : (passages.map Passage.text).Nodup := by
  rw [List.Nodup, List.pairwise_map] at distinct ⊢
  refine distinct.imp ?_
  intro first second different same
  exact different (determined _ _ first.text first.isKeyText (same ▸ second.isKeyText))

end Passages

theorem forall₂_of_passes {store read : Value → Except Error Value} {items : List Value}
    (each : ∀ item ∈ items, Passes store read item) :
    ∃ stored loaded results, List.Forall₂ (fun item form => store item = .ok form) items stored ∧
      List.Forall₂ Value.Exchanges stored loaded ∧
      List.Forall₂ (fun form item => read form = .ok item) loaded results ∧
      List.Forall₂ Value.Alike items results := by
  induction items with
  | nil => exact ⟨[], [], [], .nil, .nil, .nil, .nil⟩
  | cons item rest inductionHypothesis =>
      obtain ⟨stored, loaded, result, isStored, exchanges, isRead, alike⟩ :=
        each item List.mem_cons_self
      obtain ⟨storedRest, loadedRest, results, areStored, exchange, areRead, areAlike⟩ :=
        inductionHypothesis fun other inRest => each other (List.mem_cons_of_mem _ inRest)
      exact ⟨stored :: storedRest, loaded :: loadedRest, result :: results,
        .cons isStored areStored, .cons exchanges exchange, .cons isRead areRead,
        .cons alike areAlike⟩

/-- What the members of a dict are read as goes along when exchanging rearranges them. -/
theorem exists_rearranged {α : Type} {stored loaded : List (String × Value)} {results : List α}
    {reads : String × Value → α → Prop}
    (exchange : List.Forall₂ (fun form other => form.1 = other.1 ∧ form.2.Exchanges other.2)
      stored loaded) (distinct : (stored.map Prod.fst).Nodup) (untagged : Value.Untagged stored)
    (areRead : List.Forall₂ reads loaded results) :
    ∃ arranged others, (Value.ofMembers stored).Exchanges (.ofMembers arranged) ∧
      List.Forall₂ reads arranged others ∧ others.Perm results := by
  obtain ⟨arranged, same, exchanges⟩ := Value.exchanges_ofMembers exchange distinct untagged
  obtain ⟨others, readsArranged, sameResults⟩ := List.perm_comp_forall₂ same areRead
  exact ⟨arranged, others, exchanges, readsArranged, sameResults⟩

/-- A dict of values that come back comes back itself, with its entries in another order. -/
theorem exists_dict {flavor : DictFlavor} {store read : Value → Except Error Value}
    {entries : List (Value × Value)} (keyed : flavor.Entries entries)
    (each : ∀ entry ∈ entries, Passes store read entry.2) :
    ∃ stored loaded results,
      List.Forall₂ (fun entry form => store entry.2 = .ok form.2 ∧
        flavor.storeKey entry.1 = form.1) entries stored ∧
      (Value.dict stored).Exchanges (.dict loaded) ∧
      List.Forall₂ (fun form entry => flavor.readKey form.1 = .ok entry.1 ∧
        read form.2 = .ok entry.2) loaded results ∧
      (Value.dict entries).Alike (.dict results) := by
  obtain ⟨passages, rfl⟩ := exists_passages flavor.IsKeyText (fun _ => store) (fun _ => read)
    fun entry inEntries =>
      have ⟨text, isKeyText⟩ := DictFlavor.exists_keyText (keyed.admitted entry inEntries)
      ⟨text, isKeyText, each entry inEntries⟩
  have distinct : ((passages.map fun passage => (passage.text, passage.stored)).map
      Prod.fst).Nodup := by
    rw [List.map_map]
    apply nodup_texts fun _ _ _ isKeyText => isKeyText.key_eq
    have distinctKeys := keyed.distinct
    rw [List.map_map] at distinctKeys
    exact distinctKeys
  have untagged : Value.Untagged (passages.map fun passage => (passage.text, passage.stored)) := by
    intro tag text single
    obtain ⟨passage, rfl, same⟩ := List.map_eq_singleton_iff.mp single
    rw [← (Prod.mk.inj same).1]
    exact passage.isKeyText.tagReader?_eq keyed
  have related : List.Forall₂ (fun (form loaded : String × Value) => form.1 = loaded.1 ∧
      form.2.Exchanges loaded.2) (passages.map fun passage => (passage.text, passage.stored))
      (passages.map fun passage => (passage.text, passage.loaded)) :=
    forall₂_passages (fun passage => ⟨rfl, passage.exchanges⟩) passages
  have reads : List.Forall₂ (fun (form : String × Value) (entry : Value × Value) =>
      flavor.readKey (.string form.1) = .ok entry.1 ∧ read form.2 = .ok entry.2)
      (passages.map fun passage => (passage.text, passage.loaded))
      (passages.map fun passage => (passage.key, passage.result)) :=
    forall₂_passages (fun passage => ⟨passage.isKeyText.2, passage.isRead⟩) passages
  obtain ⟨arranged, results, exchanges, readsArranged, sameResults⟩ :=
    exists_rearranged related distinct untagged reads
  refine ⟨_, _, results, ?_, exchanges, ?_, .dict ?_ ?_ sameResults⟩
  · rw [List.map_map]
    exact forall₂_passages (fun passage => ⟨passage.isStored, passage.isKeyText.1⟩) passages
  · rw [List.forall₂_map_left_iff]
    exact readsArranged
  · rw [List.map_map, List.map_map]
    rfl
  · rw [List.map_map, List.map_map]
    exact forall₂_passages Passage.alike passages

/-- The class entry of a stored document gives no member, and each other entry gives its own. -/
theorem reads_members (type : DocumentType) {store read : String → Value → Except Error Value}
    (passages : List (Passage Eq store read))
    (unreserved : ∀ member ∈ passages.map fun passage => (passage.key, passage.value),
      member.1 ≠ classKey) :
    List.Forall₂ (fun (form : String × Value) (found : List (String × Value)) =>
        form.1 = classKey ∧ found = [] ∨ form.1 ≠ classKey ∧
          ∃ item, read form.1 form.2 = .ok item ∧ found = [(form.1, item)])
      ((classKey, .string type.name) ::
        passages.map fun passage => (passage.key, passage.loaded))
      ([] :: passages.map fun passage => [(passage.key, passage.result)]) := by
  refine .cons (.inl ⟨rfl, rfl⟩) ?_
  rw [List.forall₂_map_left_iff, List.forall₂_map_right_iff, List.forall₂_same]
  intro passage inPassages
  have plain := unreserved (passage.key, passage.value) (List.mem_map_of_mem inPassages)
  refine .inr ⟨plain, passage.result, ?_, rfl⟩
  exact passage.isKeyText ▸ passage.isRead

/-- A document whose members come back comes back itself, with its members in another order. -/
theorem exists_document (type : DocumentType) (store read : String → Value → Except Error Value)
    {members : List (String × Value)} (distinct : (members.map Prod.fst).Nodup)
    (unreserved : ∀ member ∈ members, member.1 ≠ classKey)
    (each : ∀ member ∈ members, Passes (store member.1) (read member.1) member.2) :
    ∃ stored loaded results,
      List.Forall₂ (fun member form => store member.1 member.2 = .ok form.2 ∧
        Value.string member.1 = form.1) members stored ∧
      (Value.dict ((.string classKey, .string type.name) :: stored)).Exchanges (.dict loaded) ∧
      List.Forall₂ (fun (form : Value × Value) (found : List (String × Value)) =>
        ∃ name, form.1 = .string name ∧ (name = classKey ∧ found = [] ∨
          name ≠ classKey ∧ ∃ item, read name form.2 = .ok item ∧ found = [(name, item)]))
        loaded results ∧
      (results.flatten.map Prod.fst).Nodup ∧
      (Value.document type members).Alike (.document type results.flatten) := by
  obtain ⟨passages, rfl⟩ := exists_passages Eq store read fun member inMembers =>
    ⟨member.1, rfl, each member inMembers⟩
  have related : List.Forall₂ (fun (form loaded : String × Value) => form.1 = loaded.1 ∧
      form.2.Exchanges loaded.2)
      ((classKey, .string type.name) :: passages.map fun passage => (passage.key, passage.stored))
      ((classKey, .string type.name) ::
        passages.map fun passage => (passage.key, passage.loaded)) :=
    .cons ⟨rfl, Value.exchanges_string type.name⟩
      (forall₂_passages (fun passage => ⟨rfl, passage.exchanges⟩) passages)
  have reads := reads_members type passages unreserved
  rw [List.map_map] at distinct
  have fresh : classKey ∉ passages.map Passage.key := by
    intro isKey
    obtain ⟨passage, inPassages, same⟩ := List.mem_map.mp isKey
    exact unreserved (passage.key, passage.value) (List.mem_map_of_mem inPassages) same
  have distinctStored : (((classKey, Value.string type.name) ::
      passages.map fun passage => (passage.key, passage.stored)).map Prod.fst).Nodup := by
    rw [List.map_cons, List.map_map]
    exact List.nodup_cons.mpr ⟨fresh, distinct⟩
  have untagged : Value.Untagged ((classKey, .string type.name) ::
      passages.map fun passage => (passage.key, passage.stored)) := by
    intro tag text single
    rw [← (Prod.mk.inj (List.cons.inj single).1).1]
    rfl
  obtain ⟨arranged, results, exchanges, readsArranged, sameResults⟩ :=
    exists_rearranged related distinctStored untagged reads
  have flat : results.flatten.Perm (passages.map fun passage => (passage.key, passage.result)) := by
    refine sameResults.flatten.trans ?_
    rw [flatten_cons_singletons fun passage : Passage Eq store read =>
      (passage.key, passage.result)]
  refine ⟨_, _, results, ?_, exchanges, ?_, ?_, .document ?_ ?_ flat⟩
  · rw [List.map_map]
    refine forall₂_passages (fun passage => ⟨?_, rfl⟩) passages
    exact passage.isKeyText ▸ passage.isStored
  · rw [List.forall₂_map_left_iff]
    refine readsArranged.imp ?_
    intro form found isFound
    exact ⟨form.1, rfl, isFound⟩
  · rw [(flat.map Prod.fst).nodup_iff, List.map_map]
    exact distinct
  · rw [List.map_map, List.map_map]
    rfl
  · rw [List.map_map, List.map_map]
    exact forall₂_passages Passage.alike passages

/-! ## Fields -/

theorem passes_list {attributes : Attributes} {flavor : ListFlavor} {element : Field}
    {items : List Value}
    (each : ∀ item ∈ items, Passes (element.store ·) (element.read ·) item) :
    Passes (Field.store · ⟨attributes, .list flavor (some element)⟩)
      (Field.read · ⟨attributes, .list flavor (some element)⟩) (.list items) := by
  obtain ⟨stored, loaded, results, areStored, exchange, areRead, alike⟩ := forall₂_of_passes each
  refine ⟨.list stored, .list loaded, .list results, ?_, Value.exchanges_list exchange, ?_,
    .list alike⟩
  · exact map_eq_ok_iff.mpr ⟨stored, mapEach_eq_ok_iff.mpr areStored, rfl⟩
  · exact map_eq_ok_iff.mpr ⟨results, mapEach_eq_ok_iff.mpr areRead, rfl⟩

theorem passes_dict {attributes : Attributes} {flavor : DictFlavor} {element : Field}
    {entries : List (Value × Value)} (keyed : flavor.Entries entries)
    (each : ∀ entry ∈ entries, Passes (element.store ·) (element.read ·) entry.2) :
    Passes (Field.store · ⟨attributes, .dict flavor (some element)⟩)
      (Field.read · ⟨attributes, .dict flavor (some element)⟩) (.dict entries) := by
  obtain ⟨stored, loaded, results, areStored, exchanges, areRead, alike⟩ := exists_dict keyed each
  refine ⟨.dict stored, .dict loaded, .dict results, ?_, exchanges, ?_, alike⟩
  · refine map_eq_ok_iff.mpr ⟨stored, mapEach_eq_ok_iff.mpr (areStored.imp ?_), rfl⟩
    intro entry form isStored
    exact map_eq_ok_iff.mpr ⟨form.2, isStored.1, by rw [isStored.2]⟩
  · refine map_eq_ok_iff.mpr ⟨results, mapEach_eq_ok_iff.mpr (areRead.imp ?_), rfl⟩
    intro form entry isRead
    exact bind_eq_ok_iff.mpr ⟨entry.1, isRead.1, map_eq_ok_iff.mpr ⟨entry.2, isRead.2, rfl⟩⟩

theorem passes_untypedDict {attributes : Attributes} {flavor : DictFlavor}
    {entries : List (Value × Value)} (keyed : flavor.Entries entries)
    (each : ∀ entry ∈ entries, entry.2.Loaded) :
    Passes (Field.store · ⟨attributes, .dict flavor none⟩)
      (Field.read · ⟨attributes, .dict flavor none⟩) (.dict entries) := by
  obtain ⟨stored, loaded, results, areStored, exchanges, areRead, alike⟩ :=
    exists_dict keyed fun entry inEntries => passes_of_loaded (each entry inEntries)
  refine ⟨.dict stored, .dict loaded, .dict results, ?_, exchanges, ?_, alike⟩
  · apply congrArg (Except.ok ∘ Value.dict)
    rw [← List.forall₂_eq_eq_eq, List.forall₂_map_left_iff]
    refine areStored.imp ?_
    intro entry form isStored
    exact Prod.ext isStored.2 (Except.ok.inj isStored.1)
  · refine map_eq_ok_iff.mpr ⟨results, mapEach_eq_ok_iff.mpr (areRead.imp ?_), rfl⟩
    intro form entry isRead
    exact map_eq_ok_iff.mpr ⟨entry.1, isRead.1, Prod.ext rfl (Except.ok.inj isRead.2)⟩

theorem passes_document {attributes : Attributes} {nested : Embedded}
    {members : List (String × Value)} (distinct : (members.map Prod.fst).Nodup)
    (unreserved : ∀ member ∈ members, member.1 ≠ classKey)
    (each : ∀ member ∈ members, Passes (storeMember member.1 · nested.fields)
      (readMember member.1 · nested.fields) member.2) :
    Passes (Field.store · ⟨attributes, .embedded nested⟩)
      (Field.read · ⟨attributes, .embedded nested⟩)
      (.document nested.documentType members) := by
  obtain ⟨stored, loaded, results, areStored, exchanges, areRead, distinctResults, alike⟩ :=
    exists_document nested.documentType (storeMember · · nested.fields)
      (readMember · · nested.fields) distinct unreserved each
  obtain ⟨documentType, declared, displaced, fields, view⟩ := nested
  refine ⟨_, .dict loaded, _, ?_, exchanges, ?_, alike⟩
  · refine map_eq_ok_iff.mpr ⟨stored, mapEach_eq_ok_iff.mpr (areStored.imp ?_), rfl⟩
    intro member form isStored
    exact map_eq_ok_iff.mpr ⟨form.2, isStored.1, Prod.ext isStored.2 rfl⟩
  · refine map_eq_ok_iff.mpr ⟨results, mapEach_eq_ok_iff.mpr (areRead.imp ?_), ?_⟩
    · rintro ⟨key, form⟩ found ⟨name, rfl, isClass | isMember⟩
      · obtain ⟨rfl, rfl⟩ := isClass
        rfl
      · obtain ⟨plain, item, isRead, rfl⟩ := isMember
        show (if name = classKey then Except.ok [] else _) = _
        rw [if_neg plain]
        exact map_eq_ok_iff.mpr ⟨item, isRead, rfl⟩
    · rw [Mapping.ofList_of_nodup distinctResults]

theorem exchanges_items {items : List Value} (each : ∀ item ∈ items, item.Loaded) :
    (Value.list items).Exchanges (.list items) := by
  apply Value.exchanges_list
  rw [List.forall₂_same]
  intro item inItems
  exact Value.exchanges_of_loaded (each item inItems)

/-- Stored coordinates come back before the type of their geometry. -/
theorem exchanges_geometry {coordinates : Value} (type : String)
    (exchanges : coordinates.Exchanges coordinates) :
    (Value.ofMembers [("type", .string type), ("coordinates", coordinates)]).Exchanges
      (.ofMembers [("coordinates", coordinates), ("type", .string type)]) := by
  obtain ⟨json, isWritten, isRead⟩ := exchanges
  have arranged : Json.ofMembers [("type", .string type), ("coordinates", json)] =
      .object [("coordinates", json), ("type", .string type)] := by
    have before : "coordinates" < "type" := by decide
    simp only [Json.ofMembers, List.foldl_cons, List.foldl_nil, Json.insertMember, if_pos before]
  have plain : Value.ofTagged? [("coordinates", json), ("type", .string type)] = none := by
    cases json <;> rfl
  refine ⟨.object [("coordinates", json), ("type", .string type)], ?_, ?_⟩
  · rw [← arranged]
    exact Value.Writes.toJson_eq (.cons ⟨rfl, rfl⟩ (.cons ⟨rfl, isWritten⟩ .nil))
  · exact Value.Reads.ofJson_eq (.cons ⟨rfl, isRead⟩ (.cons ⟨rfl, rfl⟩ .nil)) plain

theorem passes_geo {attributes : Attributes} {geometry : GeoKind} {items : List Value}
    (each : ∀ item ∈ items, item.Loaded) :
    Passes (Field.store · ⟨attributes, .geo geometry⟩) (Field.read · ⟨attributes, .geo geometry⟩)
      (.list items) :=
  ⟨_, _, .list items, rfl, exchanges_geometry geometry.geojsonType (exchanges_items each), rfl,
    .refl _⟩

theorem passes_array {attributes : Attributes} {kind : Kind}
    (holdsArrays : kind = .vector ∨ kind = .array) {array : NumericArray}
    (few : array.dimensions < twoTo 32) :
    Passes (Field.store · ⟨attributes, kind⟩) (Field.read · ⟨attributes, kind⟩)
      (.array array) := by
  have isRead : (NumericArray.ofBlob array.toBlob).map Value.array = .ok (.array array) := by
    rw [NumericArray.ofBlob_toBlob few]
    rfl
  refine ⟨.binary array.toBlob, _, .array array, ?_, Value.exchanges_binary _, ?_, .refl _⟩
  · obtain rfl | rfl := holdsArrays <;> rfl
  · obtain rfl | rfl := holdsArrays <;> exact isRead

/-- A value in the form that a field gives out comes back from storage as JSON data alike. -/
theorem Field.ReadForm.passes {field : Field} {value : Value} (form : field.ReadForm value) :
    Passes (field.store ·) (field.read ·) value := by
  induction form with
  | null field =>
      exact passes_of_exchanges field.store_null Value.exchanges_null field.read_null
  | objectId attributes length digits =>
      obtain ⟨id, isRead, rfl⟩ := ObjectId.read?_of_lower length digits
      have isStored : ∀ location,
          Kind.objectId.storeScalar location (.string id.hex) = .ok (.objectId id) := by
        intro location
        rw [Kind.storeScalar, isRead]
      exact ⟨.objectId id, .objectId id, .string id.hex, isStored attributes.location,
        Value.exchanges_objectId id, rfl, .refl _⟩
  | uuid attributes id => exact passes_of_exchanges rfl (Value.exchanges_uuid id) rfl
  | boolean attributes truth => exact passes_of_exchanges rfl (Value.exchanges_bool truth) rfl
  | int attributes number => exact passes_of_exchanges rfl (Value.exchanges_int number) rfl
  | frameNumber attributes number => exact passes_of_exchanges rfl (Value.exchanges_int number) rfl
  | float attributes least greatest finite =>
      exact passes_of_exchanges rfl (Value.exchanges_float finite) rfl
  | string attributes text => exact passes_of_exchanges rfl (Value.exchanges_string text) rfl
  | @date attributes day notBefore notAfter =>
      refine ⟨_, _, _, rfl, Value.exchanges_dateTime
        (Calendar.DateTime.shown_midnight notBefore notAfter), ?_, .refl _⟩
      show Except.ok (Value.date (Calendar.DateTime.midnight day).toUtc.date) = _
      rw [Calendar.DateTime.toUtc_midnight]
      rfl
  | dateTime attributes parsed =>
      exact passes_of_exchanges rfl
        (Value.exchanges_dateTime (Calendar.Rfc3339.shown_of_read? parsed)) rfl
  | untypedList attributes flavor each =>
      exact passes_of_exchanges rfl (exchanges_items each) rfl
  | list attributes flavor each inductionHypothesis => exact passes_list inductionHypothesis
  | untypedDict attributes keyed each => exact passes_untypedDict keyed each
  | dict attributes keyed each inductionHypothesis => exact passes_dict keyed inductionHypothesis
  | geo attributes geometry each => exact passes_geo each
  | vector attributes few => exact passes_array (.inl rfl) few
  | array attributes few => exact passes_array (.inr rfl) few
  | document attributes nested distinct unreserved typed untyped inductionHypothesis =>
      refine passes_document distinct unreserved ?_
      intro member inMembers
      cases found : Mapping.lookup nested.fields member.1 with
      | none =>
          simp only [storeMember_of_none found, readMember_of_none found]
          exact passes_of_loaded (untyped member inMembers found)
      | some field =>
          simp only [storeMember_of_some found, readMember_of_some found]
          exact inductionHypothesis member inMembers field found

/-- A value in the form that a field gives out is stored, written as JSON data, read from it and
given out again, each time with success, and is the same in the end but for the order of entries
and members. -/
theorem Field.ReadForm.returns {field : Field} {value : Value} (form : field.ReadForm value) :
    ∃ stored json loaded result, field.store value = .ok stored ∧ stored.toJson = .ok json ∧
      Value.ofJson json = .ok loaded ∧ field.read loaded = .ok result ∧ value.Alike result := by
  obtain ⟨stored, loaded, result, isStored, ⟨json, isWritten, isLoaded⟩, isRead, alike⟩ :=
    form.passes
  exact ⟨stored, json, loaded, result, isStored, isWritten, isLoaded, isRead, alike⟩

/-- Documents that have dates by number. -/
def diaryType : DocumentType :=
  ⟨"Diary", none, [("days", .intDict "days" (some (.date "days")))]⟩

/-- A diary with a leap day, a number without a date and a member without a field. -/
def diary : Value :=
  .document diaryType
    [("days", .dict [(.int 7, .date ⟨2024, 2, 29, by decide, by decide⟩), (.int (-1), .null)]),
      ("note", .string "leap")]

theorem returns_diary : ∃ stored json loaded result,
    (Field.embedded "diary" diaryType).store diary = .ok stored ∧ stored.toJson = .ok json ∧
      Value.ofJson json = .ok loaded ∧ (Field.embedded "diary" diaryType).read loaded = .ok result ∧
      diary.Alike result := by
  apply Field.ReadForm.returns
  refine .document _ (.ofType diaryType) (by decide) (by decide) ?_ ?_
  · intro member inMembers field found
    rcases List.mem_pair.mp inMembers with rfl | rfl
    · cases found
      refine .dict _ ⟨?_, ?_, ?_⟩ ?_
      · intro entry inEntries
        rcases List.mem_pair.mp inEntries with rfl | rfl <;> rfl
      · simp
      · intro tag value single
        simp at single
      · intro entry inEntries
        rcases List.mem_pair.mp inEntries with rfl | rfl
        · exact .date _ (by decide) (by decide)
        · exact .null _
    · contradiction
  · intro member inMembers absent
    rcases List.mem_pair.mp inMembers with rfl | rfl
    · contradiction
    · exact ⟨.string "leap", .string "leap", rfl⟩

end SchemaTree
