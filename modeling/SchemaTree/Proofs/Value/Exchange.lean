import SchemaTree.Proofs.Binary64
import SchemaTree.Proofs.Calendar.Rfc3339
import SchemaTree.Proofs.Json
import SchemaTree.Proofs.NumericArray
import SchemaTree.Proofs.Text.Base64
import SchemaTree.Proofs.Text.Hex
import SchemaTree.Proofs.Traverse
import SchemaTree.Value.Exchange

/-!
Values that are written as JSON data and read again.  What has been read once is read again as
the same value; dicts with string keys come back with their entries in the order of the keys.
-/

namespace SchemaTree.Value

/-- The exchange form of the first value is read as the second. -/
def Exchanges (value loaded : Value) : Prop :=
  ∃ json, value.toJson = .ok json ∧ ofJson json = .ok loaded

/-- The values that exchange forms are read as. -/
def Loaded (value : Value) : Prop :=
  ∃ json : Json, json.WellFormed ∧ ofJson json = .ok value

/-! ## Values without values inside -/

theorem exchanges_null : null.Exchanges null :=
  ⟨.null, rfl, rfl⟩

theorem exchanges_bool (truth : Bool) : (bool truth).Exchanges (bool truth) :=
  ⟨.bool truth, rfl, rfl⟩

theorem exchanges_string (text : String) : (string text).Exchanges (string text) :=
  ⟨.string text, rfl, rfl⟩

theorem exchanges_int (number : Int64) : (int number).Exchanges (int number) := by
  refine ⟨.int number.toInt, rfl, ?_⟩
  rw [ofJson, ofInteger, Text.toInt64?_toInt]

theorem exchanges_float {number : Binary64} (finite : number.isFinite = true) :
    (float number).Exchanges (float number) := by
  refine ⟨.float number, ?_, rfl⟩
  rw [toJson, floatToJson, if_pos finite]

theorem exchanges_objectId (id : ObjectId) : (objectId id).Exchanges (objectId id) := by
  refine ⟨tagged "$oid" id.hex, rfl, ?_⟩
  show orFault (.objectId id.hex) ((ObjectId.read? id.hex).map objectId) = _
  rw [ObjectId.read?_hex]
  rfl

theorem exchanges_uuid (id : Uuid) : (uuid id).Exchanges (uuid id) := by
  refine ⟨tagged "$uuid" id.text, rfl, ?_⟩
  show orFault (.uuid id.text) ((Uuid.read? id.text).map uuid) = _
  rw [Uuid.read?_text]
  rfl

theorem exchanges_dateTime {moment : Calendar.DateTime} (shown : moment.Shown) :
    (dateTime moment).Exchanges (dateTime moment) := by
  refine ⟨tagged "$date" (Calendar.Rfc3339.write moment), rfl, ?_⟩
  show orFault (.date _) ((Calendar.Rfc3339.read? _).map dateTime) = _
  rw [Calendar.Rfc3339.read?_write shown]
  rfl

theorem exchanges_binary (bytes : List UInt8) : (binary bytes).Exchanges (binary bytes) := by
  refine ⟨tagged "$binary" (bytesText bytes), rfl, ?_⟩
  show orFault .base64 ((Text.Base64.decode? (bytesText bytes).toList).map binary) = _
  rw [bytesText, String.toList_ofList, Text.Base64.decode?_encode]
  rfl

theorem exchanges_ofInteger {value : Int} (least : -(twoTo 63 : Int) ≤ value)
    (greatest : value < twoTo 64) : (ofInteger value).Exchanges (ofInteger value) := by
  have wide : (twoTo 64 : Int) = 2 * twoTo 63 := rfl
  unfold ofInteger
  split
  · exact exchanges_int _
  · exact exchanges_float (Binary64.isFinite_ofInt (by omega))

/-! ## Lists -/

theorem exchanges_list {items loaded : List Value} (each : List.Forall₂ Exchanges items loaded) :
    (list items).Exchanges (list loaded) := by
  have written : ∃ json, itemsToJson items = .ok json ∧ itemsOfJson json = .ok loaded := by
    induction each with
    | nil => exact ⟨[], rfl, rfl⟩
    | cons first _ inductionHypothesis =>
        obtain ⟨json, firstWritten, firstRead⟩ := first
        obtain ⟨others, restWritten, restRead⟩ := inductionHypothesis
        refine ⟨json :: others, ?_, ?_⟩
        · rw [itemsToJson, firstWritten, restWritten]
          rfl
        · rw [itemsOfJson, firstRead, restRead]
          rfl
  obtain ⟨json, itemsWritten, itemsRead⟩ := written
  refine ⟨.array json, ?_, ?_⟩
  · rw [toJson, itemsWritten]
    rfl
  · rw [ofJson, itemsRead]
    rfl

/-! ## Dicts with string keys -/

/-- Members and the exchange forms of their values, under the same keys. -/
def Writes (members : List (String × Value)) (written : List (String × Json)) : Prop :=
  List.Forall₂ (fun member json => member.1 = json.1 ∧ member.2.toJson = .ok json.2)
    members written

/-- Exchange forms and the members that they are read as, under the same keys. -/
def Reads (written : List (String × Json)) (loaded : List (String × Value)) : Prop :=
  List.Forall₂ (fun json member => json.1 = member.1 ∧ ofJson json.2 = .ok member.2)
    written loaded

/-- Members that no tag and its text are among. -/
def Untagged (members : List (String × Value)) : Prop :=
  ∀ tag text, members = [(tag, .string text)] → tagReader? tag = none

theorem Writes.keys {members : List (String × Value)} {written : List (String × Json)}
    (writes : Writes members written) : written.map Prod.fst = members.map Prod.fst := by
  induction writes with
  | nil => rfl
  | cons first _ inductionHypothesis =>
      rw [List.map_cons, List.map_cons, inductionHypothesis, first.1]

theorem Reads.keys {written : List (String × Json)} {loaded : List (String × Value)}
    (reads : Reads written loaded) : loaded.map Prod.fst = written.map Prod.fst := by
  induction reads with
  | nil => rfl
  | cons first _ inductionHypothesis =>
      rw [List.map_cons, List.map_cons, inductionHypothesis, first.1]

theorem Writes.toJson_eq {members : List (String × Value)} {written : List (String × Json)}
    (writes : Writes members written) : (ofMembers members).toJson = .ok (.ofMembers written) := by
  have entries : entriesToJson (members.map fun member => (.string member.1, member.2)) =
      .ok written := by
    induction writes with
    | nil => rfl
    | cons first _ inductionHypothesis =>
        rw [List.map_cons, entriesToJson, keyText, inductionHypothesis, first.1, first.2]
        rfl
  rw [ofMembers, toJson, entries]
  rfl

theorem Reads.entriesOfJson_eq {written : List (String × Json)} {loaded : List (String × Value)}
    (reads : Reads written loaded) :
    entriesOfJson written = .ok (loaded.map fun member => (.string member.1, member.2)) := by
  induction reads with
  | nil => rfl
  | @cons json member _ _ first _ inductionHypothesis =>
      obtain ⟨key, form⟩ := json
      rw [entriesOfJson, inductionHypothesis, first.2, List.map_cons, ← first.1]
      rfl

theorem Reads.ofJson_eq {written : List (String × Json)} {loaded : List (String × Value)}
    (reads : Reads written loaded) (untagged : ofTagged? written = none) :
    ofJson (.object written) = .ok (ofMembers loaded) := by
  rw [ofJson, untagged]
  simp only [reads.entriesOfJson_eq]
  rfl

theorem map_ne_string {α : Type} {outcome : Except Error α} {build : α → Json} {text : String}
    (other : ∀ part, build part ≠ .string text) : outcome.map build ≠ .ok (.string text) := by
  intro written
  cases outcome with
  | error error => contradiction
  | ok part => exact other part (Except.ok.inj written)

theorem eq_string_of_toJson {value : Value} {text : String}
    (written : value.toJson = .ok (.string text)) : value = .string text := by
  cases value with
  | string other =>
      rw [toJson, Except.ok.injEq, Json.string.injEq] at written
      rw [written]
  | float number =>
      rw [toJson, floatToJson] at written
      by_cases finite : number.isFinite = true
      · rw [if_pos finite] at written
        injection written with same
        contradiction
      · rw [if_neg finite] at written
        contradiction
  | list items =>
      exact absurd written (map_ne_string (fun _ => Json.noConfusion))
  | dict entries =>
      exact absurd written (map_ne_string (fun _ => Json.noConfusion))
  | document type members =>
      exact absurd written (map_ne_string (fun _ => Json.noConfusion))
  | _ =>
      rw [toJson] at written
      injection written with same
      contradiction

theorem Writes.ofTagged?_eq {members : List (String × Value)}
    {written arranged : List (String × Json)} (writes : Writes members written)
    (untagged : Untagged members) (same : arranged.Perm written) :
    ofTagged? arranged = none := by
  unfold ofTagged?
  split
  · rename_i tag text
    have single : written = [(tag, .string text)] := (List.singleton_perm.mp same).symm
    rw [single] at writes
    cases writes with
    | @cons member _ _ _ first rest =>
        cases rest
        have member_eq : member = (tag, .string text) :=
          Prod.ext first.1 (eq_string_of_toJson first.2)
        rw [untagged tag text (by rw [member_eq]), Option.map_none]
  · rfl

theorem exists_written {members loaded : List (String × Value)}
    (related : List.Forall₂ (fun member other => member.1 = other.1 ∧ member.2.Exchanges other.2)
      members loaded) : ∃ written, Writes members written ∧ Reads written loaded := by
  induction related with
  | nil => exact ⟨[], .nil, .nil⟩
  | @cons member other _ _ first _ inductionHypothesis =>
      obtain ⟨json, isWritten, isRead⟩ := first.2
      obtain ⟨written, writes, reads⟩ := inductionHypothesis
      exact ⟨(member.1, json) :: written, .cons ⟨rfl, isWritten⟩ writes,
        .cons ⟨first.1, isRead⟩ reads⟩

/-- A dict with distinct string keys comes back with its entries in another order. -/
theorem exchanges_ofMembers {members loaded : List (String × Value)}
    (related : List.Forall₂ (fun member other => member.1 = other.1 ∧ member.2.Exchanges other.2)
      members loaded)
    (distinct : (members.map Prod.fst).Nodup) (untagged : Untagged members) :
    ∃ arranged : List (String × Value), arranged.Perm loaded ∧
      (ofMembers members).Exchanges (ofMembers arranged) := by
  obtain ⟨written, writes, reads⟩ := exists_written related
  obtain ⟨arranged, same, whole⟩ := Json.ofMembers_perm (writes.keys ▸ distinct)
  obtain ⟨result, readsArranged, sameLoaded⟩ := List.perm_comp_forall₂ same reads
  refine ⟨result, sameLoaded, .object arranged, ?_, ?_⟩
  · rw [writes.toJson_eq, whole]
  · exact Reads.ofJson_eq readsArranged (writes.ofTagged?_eq untagged same)

/-! ## What has been read once -/

theorem eq_ok_of_orFault {fault : CodecFault} {found : Option Value} {value : Value}
    (read : orFault fault found = .ok value) : found = some value := by
  cases found with
  | none => contradiction
  | some other => exact congrArg some (Except.ok.inj read)

/-- The values that stand in JSON data under a tag. -/
inductive FromTag : Value → Prop
  | binary (bytes : List UInt8) : FromTag (.binary bytes)
  | dateTime {moment : Calendar.DateTime} (shown : moment.Shown) : FromTag (.dateTime moment)
  | objectId (id : ObjectId) : FromTag (.objectId id)
  | uuid (id : Uuid) : FromTag (.uuid id)

theorem FromTag.exchanges {value : Value} (fromTag : value.FromTag) : value.Exchanges value := by
  cases fromTag with
  | binary bytes => exact exchanges_binary bytes
  | dateTime shown => exact exchanges_dateTime shown
  | objectId id => exact exchanges_objectId id
  | uuid id => exact exchanges_uuid id

theorem fromTag_of_tagReader? {tag text : String} {reader : String → Except Error Value}
    {value : Value} (isTag : tagReader? tag = some reader) (read : reader text = .ok value) :
    value.FromTag := by
  unfold tagReader? at isTag
  split at isTag
  · cases isTag
    obtain ⟨bytes, _, rfl⟩ := Option.map_eq_some_iff.mp (eq_ok_of_orFault read)
    exact .binary bytes
  · split at isTag
    · cases isTag
      obtain ⟨moment, isRead, rfl⟩ := Option.map_eq_some_iff.mp (eq_ok_of_orFault read)
      exact .dateTime (Calendar.Rfc3339.shown_of_read? isRead)
    · split at isTag
      · cases isTag
        obtain ⟨id, _, rfl⟩ := Option.map_eq_some_iff.mp (eq_ok_of_orFault read)
        exact .objectId id
      · split at isTag
        · cases isTag
          obtain ⟨id, _, rfl⟩ := Option.map_eq_some_iff.mp (eq_ok_of_orFault read)
          exact .uuid id
        · contradiction

theorem eq_some_of_ofTagged? {members : List (String × Json)} {outcome : Except Error Value}
    (isTagged : ofTagged? members = some outcome) :
    ∃ tag text reader, tagReader? tag = some reader ∧ reader text = outcome := by
  unfold ofTagged? at isTagged
  split at isTagged
  · rename_i tag text
    obtain ⟨reader, isTag, applied⟩ := Option.map_eq_some_iff.mp isTagged
    exact ⟨tag, text, reader, isTag, applied⟩
  · contradiction

theorem string_of_ofJson {json : Json} {text : String} (read : ofJson json = .ok (.string text)) :
    json = .string text := by
  cases json with
  | string other =>
      rw [ofJson] at read
      injection read with same
      injection same with same
      rw [same]
  | int number =>
      rw [ofJson, ofInteger] at read
      split at read <;> injection read with same <;> contradiction
  | array items =>
      obtain ⟨_, _, impossible⟩ := map_eq_ok_iff.mp read
      contradiction
  | object members =>
      rw [ofJson] at read
      split at read
      · rename_i outcome isTagged
        obtain ⟨tag, other, reader, isTag, applied⟩ := eq_some_of_ofTagged? isTagged
        cases fromTag_of_tagReader? isTag (applied.trans read)
      · obtain ⟨_, _, impossible⟩ := map_eq_ok_iff.mp read
        contradiction
  | _ =>
      rw [ofJson] at read
      injection read with same
      contradiction

theorem itemsOfJson_eq_ok {items : List Json} {loaded : List Value}
    (read : itemsOfJson items = .ok loaded) :
    List.Forall₂ (fun json value => ofJson json = .ok value) items loaded := by
  induction items generalizing loaded with
  | nil =>
      cases read
      exact .nil
  | cons json rest inductionHypothesis =>
      rw [itemsOfJson] at read
      cases first : ofJson json with
      | error error =>
          rw [first] at read
          contradiction
      | ok value =>
          rw [first] at read
          obtain ⟨others, restRead, rfl⟩ := map_eq_ok_iff.mp read
          exact .cons first (inductionHypothesis restRead)

theorem entriesOfJson_eq_ok {members : List (String × Json)} {entries : List (Value × Value)}
    (read : entriesOfJson members = .ok entries) :
    ∃ loaded, Reads members loaded ∧
      entries = loaded.map fun member => (.string member.1, member.2) := by
  induction members generalizing entries with
  | nil =>
      cases read
      exact ⟨[], .nil, rfl⟩
  | cons member rest inductionHypothesis =>
      obtain ⟨key, json⟩ := member
      rw [entriesOfJson] at read
      cases first : ofJson json with
      | error error =>
          rw [first] at read
          contradiction
      | ok value =>
          rw [first] at read
          obtain ⟨others, restRead, rfl⟩ := map_eq_ok_iff.mp read
          obtain ⟨loaded, reads, same⟩ := inductionHypothesis restRead
          exact ⟨(key, value) :: loaded, .cons ⟨rfl, first⟩ reads, by rw [same]; rfl⟩

theorem Reads.untagged {members : List (String × Json)} {loaded : List (String × Value)}
    (reads : Reads members loaded) (plain : ofTagged? members = none) : Untagged loaded := by
  intro tag text single
  rw [single] at reads
  cases reads with
  | @cons member _ _ _ first rest =>
      cases rest
      have member_eq : member = (tag, .string text) := Prod.ext first.1 (string_of_ofJson first.2)
      rw [member_eq, ofTagged?, Option.map_eq_none_iff] at plain
      exact plain

theorem Reads.related {members : List (String × Json)} {loaded : List (String × Value)}
    (reads : Reads members loaded)
    (each : ∀ member ∈ members, ∀ value, ofJson member.2 = .ok value → value.Exchanges value) :
    List.Forall₂ (fun member other => member.1 = other.1 ∧ member.2.Exchanges other.2)
      loaded loaded := by
  induction reads with
  | nil => exact .nil
  | @cons member _ _ _ first _ inductionHypothesis =>
      refine .cons ⟨rfl, each member List.mem_cons_self _ first.2⟩ (inductionHypothesis ?_)
      intro other inRest
      exact each other (List.mem_cons_of_mem _ inRest)

/-- What an object is read as comes back in the same order, since objects are arranged. -/
theorem exchanges_object {members : List (String × Json)} {loaded : List (String × Value)}
    (arranged : Json.Arranged members) (reads : Reads members loaded)
    (plain : ofTagged? members = none)
    (each : ∀ member ∈ members, ∀ value, ofJson member.2 = .ok value → value.Exchanges value) :
    (ofMembers loaded).Exchanges (ofMembers loaded) := by
  obtain ⟨written, writes, readsWritten⟩ := exists_written (reads.related each)
  have sameKeys : written.map Prod.fst = members.map Prod.fst := writes.keys.trans reads.keys
  have arrangedWritten : Json.Arranged written := by
    rw [Json.Arranged, ← List.pairwise_map, sameKeys, List.pairwise_map]
    exact arranged
  refine ⟨.object written, ?_, ?_⟩
  · rw [writes.toJson_eq, Json.ofMembers_of_arranged arrangedWritten]
  · exact readsWritten.ofJson_eq
      (writes.ofTagged?_eq (reads.untagged plain) (List.Perm.refl written))

/-- What has been read from JSON data once is written and read again unchanged. -/
theorem exchanges_of_loaded {value : Value} (loaded : value.Loaded) : value.Exchanges value := by
  obtain ⟨json, wellFormed, read⟩ := loaded
  induction wellFormed generalizing value with
  | null =>
      cases read
      exact exchanges_null
  | bool truth =>
      cases read
      exact exchanges_bool truth
  | int least greatest =>
      cases read
      exact exchanges_ofInteger least greatest
  | float finite =>
      cases read
      exact exchanges_float finite
  | string text =>
      cases read
      exact exchanges_string text
  | @array items wellFormed inductionHypothesis =>
      obtain ⟨loaded, itemsRead, rfl⟩ := map_eq_ok_iff.mp read
      have each := itemsOfJson_eq_ok itemsRead
      apply exchanges_list
      clear read itemsRead wellFormed
      induction each with
      | nil => exact .nil
      | @cons json value _ _ first _ restHypothesis =>
          refine .cons (inductionHypothesis json List.mem_cons_self first) (restHypothesis ?_)
          intro other inRest
          exact inductionHypothesis other (List.mem_cons_of_mem _ inRest)
  | @object members arranged _ inductionHypothesis =>
      rw [ofJson] at read
      split at read
      · rename_i outcome isTagged
        obtain ⟨tag, text, reader, isTag, applied⟩ := eq_some_of_ofTagged? isTagged
        exact (fromTag_of_tagReader? isTag (applied.trans read)).exchanges
      · rename_i plain
        obtain ⟨entries, entriesRead, rfl⟩ := map_eq_ok_iff.mp read
        obtain ⟨loaded, reads, rfl⟩ := entriesOfJson_eq_ok entriesRead
        exact exchanges_object arranged reads plain fun member inMembers _ isRead =>
          inductionHypothesis member inMembers isRead

end SchemaTree.Value
