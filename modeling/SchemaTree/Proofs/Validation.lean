import SchemaTree.Proofs.Traverse
import SchemaTree.Validation

/-!
What validation accepts, one level at a time: the items of a list, the entries of a dict and the
members of a document that a field of that kind passes.
-/

namespace SchemaTree

theorem located_eq_ok_iff {α : Type} {path : String} {outcome : Except Violation α} {result : α} :
    located path outcome = .ok result ↔ outcome = .ok result := by
  cases outcome with
  | error violation =>
      constructor
      · intro isOk
        contradiction
      · intro isOk
        contradiction
  | ok value => exact Iff.of_eq (by rw [located, Except.ok.injEq, Except.ok.injEq])

theorem located_eq_error_iff {α : Type} {path : String} {outcome : Except Violation α}
    {error : Error} :
    located path outcome = .error error ↔
      ∃ violation, outcome = .error violation ∧ error = .invalid (some path) violation := by
  cases outcome <;> simp [located, eq_comm]

theorem ensure_eq_ok_iff {holds : Bool} {violation : Violation} :
    ensure holds violation = .ok () ↔ holds = true := by
  cases holds with
  | false =>
      constructor
      · intro isOk
        contradiction
      · intro isTrue
        contradiction
  | true => exact ⟨fun _ => rfl, fun _ => rfl⟩

/-- Whether a dict of a flavor has keys of this type. -/
def DictFlavor.Admits (flavor : DictFlavor) : Value → Prop
  | .string _ => flavor.hasIntKeys = false
  | .int _ => flavor.hasIntKeys = true
  | _ => False

theorem DictFlavor.entriesOf_eq_ok_iff {flavor : DictFlavor} {value : Value}
    {entries : List (Value × Value)} :
    flavor.entriesOf value = .ok entries ↔
      value = .dict entries ∧ ∀ entry ∈ entries, flavor.Admits entry.1 := by
  have fits : ∀ key : Value, (match key with
      | .string _ => !flavor.hasIntKeys
      | .int _ => flavor.hasIntKeys
      | _ => false) = true ↔ flavor.Admits key := by
    intro key
    cases key with
    | string text => exact Iff.of_eq (Bool.not_eq_true' _)
    | int number => exact Iff.rfl
    | _ => exact ⟨fun isTrue => absurd isTrue Bool.false_ne_true, False.elim⟩
  cases value with
  | dict others =>
      rw [entriesOf, Value.dict.injEq]
      split
      · rename_i allFit
        rw [Except.ok.injEq, iff_self_and]
        rintro rfl entry inEntries
        exact (fits entry.1).mp (List.all_eq_true.mp allFit entry inEntries)
      · rename_i notAll
        constructor
        · intro isOk
          contradiction
        · rintro ⟨rfl, admitted⟩
          refine absurd (List.all_eq_true.mpr ?_) notAll
          intro entry inEntries
          exact (fits entry.1).mpr (admitted entry inEntries)
  | _ =>
      constructor
      · intro isOk
        contradiction
      · rintro ⟨isDict, _⟩
        contradiction

theorem Value.membersOf_eq_ok {documentType : DocumentType} {value : Value}
    {members : List (String × Value)} (isOk : value.membersOf documentType = .ok members) :
    ∃ type, value = .document type members := by
  cases value with
  | document type others =>
      rw [membersOf] at isOk
      split at isOk <;> cases isOk
      exact ⟨type, rfl⟩
  | _ => contradiction

theorem Value.exists_items_of_numberPair? {value : Value} {left right : Binary64}
    (isPair : value.numberPair? = some (left, right)) :
    ∃ first second, value = .list [first, second] ∧ first.number? = some left ∧
      second.number? = some right := by
  unfold numberPair? at isPair
  split at isPair
  · rename_i first second areItems
    obtain ⟨_, isLeft, rest⟩ := Option.bind_eq_some_iff.mp isPair
    obtain ⟨_, isRight, ⟨⟩⟩ := Option.map_eq_some_iff.mp rest
    cases value with
    | list items =>
        cases areItems
        exact ⟨first, second, rfl, isLeft, isRight⟩
    | _ => contradiction
  · contradiction

/-- Whether the items of a list of a flavor are checked by the element field. -/
def ListFlavor.checksItems : ListFlavor → Bool
  | .plain | .classes | .embeddedDocuments => true
  | _ => false

theorem ListFlavor.itemsOf_eq_ok {flavor : ListFlavor} (checksItems : flavor.checksItems = true)
    {value : Value} {entries : List (Nat × Value)} (isOk : flavor.itemsOf value = .ok entries) :
    ∃ items, value = .list items ∧ entries = items.zipIdx.map Prod.swap := by
  cases value with
  | list items =>
      refine ⟨items, rfl, ?_⟩
      cases flavor <;> first | exact (Except.ok.inj isOk).symm | contradiction
  | _ => cases flavor <;> contradiction

theorem ListFlavor.itemsOf_eq_nil {flavor : ListFlavor} (checksNone : flavor.checksItems = false)
    {value : Value} {entries : List (Nat × Value)} (isOk : flavor.itemsOf value = .ok entries) :
    entries = [] := by
  cases flavor <;> first
    | contradiction
    | exact (map_eq_ok_iff.mp isOk).elim fun _ isEnsured => isEnsured.2.symm

theorem ListFlavor.itemsOf_list {flavor : ListFlavor} (checksItems : flavor.checksItems = true)
    (items : List Value) : flavor.itemsOf (.list items) = .ok (items.zipIdx.map Prod.swap) := by
  cases flavor <;> first | rfl | contradiction

namespace Field

theorem checkMissing_eq_ok_iff {field : Field} {path : String} :
    field.checkMissing path = .ok () ↔ field.required = false := by
  unfold checkMissing
  cases field.required with
  | false => exact ⟨fun _ => rfl, fun _ => rfl⟩
  | true =>
      constructor
      · intro isOk
        contradiction
      · intro isFalse
        contradiction

/-- A value that an item, an entry or a member may have: null, or accepted at some path. -/
def Accepts (field : Field) (value : Value) : Prop :=
  value.isNull = false → ∃ path, field.check path value = .ok ()

/-- The items of a list that a field accepts. -/
theorem accepts_of_check_list {attributes : Attributes} {flavor : ListFlavor} {element : Field}
    (checksItems : flavor.checksItems = true) {path : String} {value : Value}
    (checked : Field.check path value ⟨attributes, .list flavor (some element)⟩ = .ok ()) :
    ∃ items, value = .list items ∧ ∀ item ∈ items, element.Accepts item := by
  rw [check, bind_eq_ok_iff] at checked
  obtain ⟨entries, areItems, each⟩ := checked
  obtain ⟨items, rfl, rfl⟩ := ListFlavor.itemsOf_eq_ok checksItems (located_eq_ok_iff.mp areItems)
  refine ⟨items, rfl, ?_⟩
  intro item inItems present
  obtain ⟨index, bounded, rfl⟩ := List.getElem_of_mem inItems
  have entry := (checkEach_eq_ok_iff _ _).mp each (index, items[index]) (by
    rw [List.mem_map]
    exact ⟨(items[index], index), List.mk_mem_zipIdx_iff_getElem?.mpr
      (List.getElem?_eq_getElem bounded), rfl⟩)
  rw [present] at entry
  exact ⟨_, entry⟩

theorem check_list {attributes : Attributes} {flavor : ListFlavor} {element : Field}
    (checksItems : flavor.checksItems = true) {items : List Value}
    (each : ∀ item ∈ items, item.isNull = false → ∀ path, element.check path item = .ok ())
    (path : String) :
    Field.check path (.list items) ⟨attributes, .list flavor (some element)⟩ = .ok () := by
  rw [check, ListFlavor.itemsOf_list checksItems]
  refine (checkEach_eq_ok_iff _ _).mpr ?_
  intro entry isEntry
  obtain ⟨⟨item, index⟩, isItem, rfl⟩ := List.mem_map.mp isEntry
  have inItems := List.fst_mem_of_mem_zipIdx isItem
  show (if item.isNull then _ else _) = _
  cases missing : item.isNull with
  | true => rfl
  | false => exact each item inItems missing _

theorem accepts_of_check_dict {attributes : Attributes} {flavor : DictFlavor} {element : Field}
    {path : String} {value : Value}
    (checked : Field.check path value ⟨attributes, .dict flavor (some element)⟩ = .ok ()) :
    ∃ entries, value = .dict entries ∧ (∀ entry ∈ entries, flavor.Admits entry.1) ∧
      ∀ entry ∈ entries, element.Accepts entry.2 := by
  rw [check, bind_eq_ok_iff] at checked
  obtain ⟨entries, areEntries, each⟩ := checked
  obtain ⟨rfl, admitted⟩ := DictFlavor.entriesOf_eq_ok_iff.mp (located_eq_ok_iff.mp areEntries)
  refine ⟨entries, rfl, admitted, ?_⟩
  intro entry inEntries present
  have checkedEntry := (checkEach_eq_ok_iff _ _).mp each entry inEntries
  rw [present] at checkedEntry
  exact ⟨_, checkedEntry⟩

theorem check_dict {attributes : Attributes} {flavor : DictFlavor} {element : Field}
    {entries : List (Value × Value)} (admitted : ∀ entry ∈ entries, flavor.Admits entry.1)
    (each : ∀ entry ∈ entries, entry.2.isNull = false →
      ∀ path, element.check path entry.2 = .ok ()) (path : String) :
    Field.check path (.dict entries) ⟨attributes, .dict flavor (some element)⟩ = .ok () := by
  rw [check, DictFlavor.entriesOf_eq_ok_iff.mpr ⟨rfl, admitted⟩]
  refine (checkEach_eq_ok_iff _ _).mpr ?_
  intro entry inEntries
  cases missing : entry.2.isNull with
  | true => rfl
  | false => exact each entry inEntries missing _

end Field

/-- The value of a member, which is null if there is none. -/
def memberOrNull (members : List (String × Value)) (name : String) : Value :=
  (Mapping.lookup members name).getD .null

theorem checkMembers_eq_ok_iff {path : String} {members : List (String × Value)}
    {fields : List (String × Field)} :
    checkMembers path members fields = .ok () ↔ ∀ entry ∈ fields,
      (if (memberOrNull members entry.1).isNull then
          entry.2.checkMissing (Path.below path entry.1)
        else entry.2.check (Path.below path entry.1) (memberOrNull members entry.1)) = .ok () := by
  induction fields with
  | nil => exact ⟨fun _ _ isEntry => absurd isEntry List.not_mem_nil, fun _ => rfl⟩
  | cons entry rest inductionHypothesis =>
      obtain ⟨name, field⟩ := entry
      rw [checkMembers, bind_eq_ok_iff, List.forall_mem_cons, ← inductionHypothesis]
      constructor
      · rintro ⟨checked, first, others⟩
        exact ⟨first, others⟩
      · rintro ⟨first, others⟩
        exact ⟨(), first, others⟩

end SchemaTree
