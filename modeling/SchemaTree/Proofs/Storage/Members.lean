import SchemaTree.Proofs.Text.Digits
import SchemaTree.Proofs.Validation
import SchemaTree.Storage

/-!
Storing and reading, one level at a time: null stays null, the keys of dicts come back from their
texts, and a member of a document is treated as the field that is found under its name treats it.
-/

namespace SchemaTree

theorem storeMember_of_some {fields : List (String × Field)} {name : String} {field : Field}
    (found : Mapping.lookup fields name = some field) (value : Value) :
    storeMember name value fields = field.store value := by
  induction fields with
  | nil => contradiction
  | cons entry rest inductionHypothesis =>
      obtain ⟨key, other⟩ := entry
      rw [Mapping.lookup] at found
      rw [storeMember]
      split at found
      · rename_i same
        rw [if_pos same, Option.some.inj found]
      · rename_i different
        rw [if_neg different, inductionHypothesis found]

theorem storeMember_of_none {fields : List (String × Field)} {name : String}
    (absent : Mapping.lookup fields name = none) (value : Value) :
    storeMember name value fields = .ok value := by
  induction fields with
  | nil => rfl
  | cons entry rest inductionHypothesis =>
      obtain ⟨key, other⟩ := entry
      rw [Mapping.lookup] at absent
      rw [storeMember]
      split at absent
      · contradiction
      · rename_i different
        rw [if_neg different, inductionHypothesis absent]

theorem readMember_of_some {fields : List (String × Field)} {name : String} {field : Field}
    (found : Mapping.lookup fields name = some field) (value : Value) :
    readMember name value fields = field.read value := by
  induction fields with
  | nil => contradiction
  | cons entry rest inductionHypothesis =>
      obtain ⟨key, other⟩ := entry
      rw [Mapping.lookup] at found
      rw [readMember]
      split at found
      · rename_i same
        rw [if_pos same, Option.some.inj found]
      · rename_i different
        rw [if_neg different, inductionHypothesis found]

theorem readMember_of_none {fields : List (String × Field)} {name : String}
    (absent : Mapping.lookup fields name = none) (value : Value) :
    readMember name value fields = .ok value := by
  induction fields with
  | nil => rfl
  | cons entry rest inductionHypothesis =>
      obtain ⟨key, other⟩ := entry
      rw [Mapping.lookup] at absent
      rw [readMember]
      split at absent
      · contradiction
      · rename_i different
        rw [if_neg different, inductionHypothesis absent]

namespace Field

@[simp]
theorem store_null (field : Field) : field.store .null = .ok .null := by
  obtain ⟨attributes, kind⟩ := field
  cases kind with
  | list flavor element => cases element <;> rfl
  | dict flavor element => cases element <;> rfl
  | embedded nested =>
      obtain ⟨documentType, declared, displaced, fields, view⟩ := nested
      rfl
  | _ => rfl

@[simp]
theorem read_null (field : Field) : field.read .null = .ok .null := by
  obtain ⟨attributes, kind⟩ := field
  cases kind with
  | list flavor element => cases element <;> rfl
  | dict flavor element => cases element <;> rfl
  | embedded nested =>
      obtain ⟨documentType, declared, displaced, fields, view⟩ := nested
      rfl
  | _ => rfl

end Field

/-! ## Keys of dicts -/

/-- The text that stands for a key in a store. -/
def DictFlavor.IsKeyText (flavor : DictFlavor) (key : Value) (text : String) : Prop :=
  flavor.storeKey key = .string text ∧ flavor.readKey (.string text) = .ok key

theorem DictFlavor.exists_keyText {flavor : DictFlavor} {key : Value}
    (admitted : flavor.Admits key) : ∃ text, flavor.IsKeyText key text := by
  cases key with
  | string text =>
      have plain : flavor.hasIntKeys = false := admitted
      refine ⟨text, rfl, ?_⟩
      rw [readKey, plain]
      rfl
  | int number =>
      have integral : flavor.hasIntKeys = true := admitted
      refine ⟨Text.showInt number.toInt, ?_, ?_⟩
      · rw [storeKey, if_pos integral]
      · rw [readKey, if_pos integral, Text.readInt64?_showInt]
  | _ => exact admitted.elim

theorem DictFlavor.IsKeyText.key_eq {flavor : DictFlavor} {key other : Value} {text : String}
    (isKeyText : flavor.IsKeyText key text) (isOtherText : flavor.IsKeyText other text) :
    key = other :=
  Except.ok.inj (isKeyText.2.symm.trans isOtherText.2)

end SchemaTree
