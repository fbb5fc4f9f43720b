import SchemaTree.Proofs.Value.Exchange

/-!
What reading and writing make of JSON data.  A value that was read is written in a form that is
read as the same value.  That form is the data it was read from, unless an integer among them has
no place in 64 bits, or an object is a tag and its text, which can be spelled in many ways.
-/

namespace SchemaTree

namespace Value

/-- The keys of the objects with one member that stand for what JSON lacks. -/
def tags : List String := ["$binary", "$date", "$oid", "$uuid"]

theorem tagReader?_eq_none {key : String} (isUntagged : key ∉ tags) : tagReader? key = none := by
  simp only [tags, List.mem_cons, List.not_mem_nil, or_false, not_or] at isUntagged
  obtain ⟨notBinary, notDate, notObjectId, notUuid⟩ := isUntagged
  simp [tagReader?, notBinary, notDate, notObjectId, notUuid]

end Value

/-- Data in which every integer has its place in 64 bits with a sign, and no object is a tag and
its text. -/
inductive Json.Plain : Json → Prop
  | null : Json.Plain .null
  | bool (truth : Bool) : Json.Plain (.bool truth)
  | int {number : Int} (least : -(twoTo 63 : Int) ≤ number) (greatest : number < twoTo 63) :
      Json.Plain (.int number)
  | float (number : Binary64) : Json.Plain (.float number)
  | string (text : String) : Json.Plain (.string text)
  | array {items : List Json} (each : ∀ item ∈ items, Json.Plain item) : Json.Plain (.array items)
  | object {members : List (String × Json)}
      (untagged : ∀ key text, members = [(key, .string text)] → key ∉ Value.tags)
      (each : ∀ member ∈ members, Json.Plain member.2) : Json.Plain (.object members)

namespace Value

theorem ofTagged?_eq_none {members : List (String × Json)}
    (untagged : ∀ key text, members = [(key, .string text)] → key ∉ tags) :
    ofTagged? members = none := by
  unfold ofTagged?
  split
  · next key text => simp [tagReader?_eq_none (untagged key text rfl)]
  · rfl

theorem itemsToJson_eq_ok {items : List Value} {written : List Json}
    (each : List.Forall₂ (fun item json => item.toJson = .ok json) items written) :
    itemsToJson items = .ok written := by
  induction each with
  | nil => rfl
  | cons first _ inductionHypothesis =>
      simp [itemsToJson, first, inductionHypothesis, Except.bind, Except.map]

/-- Plain data are written as they were read. -/
theorem toJson_of_plain {json : Json} (plain : json.Plain) (wellFormed : json.WellFormed)
    {value : Value} (read : ofJson json = .ok value) : value.toJson = .ok json := by
  induction plain generalizing value with
  | null =>
      cases read
      rfl
  | bool truth =>
      cases read
      rfl
  | @int number least greatest =>
      have fits : Text.toInt64? number = some (Int64.ofInt number) := by
        simp [Text.toInt64?, least, greatest]
      simp only [ofJson, ofInteger, fits, Except.ok.injEq] at read
      subst read
      simp only [toJson, Int64.toInt_ofInt_of_le least greatest]
  | float number =>
      cases read
      cases wellFormed with
      | float finite => simp [toJson, floatToJson, finite]
  | string text =>
      cases read
      rfl
  | @array items _ inductionHypothesis =>
      cases wellFormed with
      | array wellFormed =>
          obtain ⟨loaded, itemsRead, rfl⟩ := map_eq_ok_iff.mp read
          have written : itemsToJson loaded = .ok items := by
            apply itemsToJson_eq_ok
            apply List.Forall₂.flip
            apply forall₂_imp_of_mem (itemsOfJson_eq_ok itemsRead)
            intro item isItem value isRead
            exact inductionHypothesis item isItem (wellFormed item isItem) isRead
          simp [toJson, written, Except.map]
  | @object members untagged _ inductionHypothesis =>
      cases wellFormed with
      | object arranged wellFormed =>
          simp only [ofJson, ofTagged?_eq_none untagged] at read
          obtain ⟨entries, entriesRead, rfl⟩ := map_eq_ok_iff.mp read
          obtain ⟨loaded, reads, rfl⟩ := entriesOfJson_eq_ok entriesRead
          have writes : Writes loaded members := by
            apply List.Forall₂.flip
            apply forall₂_imp_of_mem reads
            rintro member isMember other ⟨sameKey, isRead⟩
            exact ⟨sameKey.symm,
              inductionHypothesis member isMember (wellFormed member isMember) isRead⟩
          rw [← Json.ofMembers_of_arranged arranged]
          exact writes.toJson_eq

/-- A value that was read from JSON data is written in a form that is read as the same value, and
plain data are written as they were read. -/
theorem exchange_is_stable {json : Json} (wellFormed : json.WellFormed) {value : Value}
    (read : ofJson json = .ok value) :
    (∃ again, value.toJson = .ok again ∧ ofJson again = .ok value) ∧
      (json.Plain → value.toJson = .ok json) := by
  constructor
  · exact exchanges_of_loaded ⟨json, wellFormed, read⟩
  · intro plain
    exact toJson_of_plain plain wellFormed read

/-- A count beyond 64 bits with a sign, beside bytes under their tag. -/
def tally : Json :=
  .object [("bytes", .object [("$binary", .string "AAEC")]), ("count", .int (twoTo 63))]

/-- A number under a key that is a tag only of texts. -/
def dated : Json :=
  .object [("$date", .int 7)]

theorem exchange_is_stable_tally_dated :
    let counted := dict [(.string "bytes", .binary [0, 1, 2]),
      (.string "count", .float (.ofInt (twoTo 63)))]
    let numbered := dict [(.string "$date", .int 7)]
    (tally.WellFormed ∧ ofJson tally = .ok counted) ∧
      (∃ again, counted.toJson = .ok again ∧ ofJson again = .ok counted) ∧
      (dated.WellFormed ∧ dated.Plain ∧ ofJson dated = .ok numbered) ∧
      numbered.toJson = .ok dated := by
  have tallyWellFormed : tally.WellFormed := by
    refine .object (by unfold Json.Arranged; decide) ?_
    simp only [List.forall_mem_cons, List.not_mem_nil, false_implies, implies_true, and_true]
    refine ⟨.object (by unfold Json.Arranged; decide) ?_, .int (by decide) (by decide)⟩
    simpa using Json.WellFormed.string "AAEC"
  have datedWellFormed : dated.WellFormed := by
    refine .object (by unfold Json.Arranged; decide) ?_
    simpa using Json.WellFormed.int (by decide) (by decide)
  have datedPlain : dated.Plain := by
    refine .object (by simp) ?_
    simpa using Json.Plain.int (by decide) (by decide)
  have tallyRead : ofJson tally = .ok (dict [(.string "bytes", .binary [0, 1, 2]),
      (.string "count", .float (.ofInt (twoTo 63)))]) := rfl
  have datedRead : ofJson dated = .ok (dict [(.string "$date", .int 7)]) := rfl
  exact ⟨⟨tallyWellFormed, tallyRead⟩, (exchange_is_stable tallyWellFormed tallyRead).1,
    ⟨datedWellFormed, datedPlain, datedRead⟩,
    (exchange_is_stable datedWellFormed datedRead).2 datedPlain⟩

end Value

end SchemaTree
