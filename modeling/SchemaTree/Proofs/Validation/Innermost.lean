import SchemaTree.Field.Constructors
import SchemaTree.Proofs.Field.Nested
import SchemaTree.Proofs.Validation

/-!
Where validation fails.  A field checks a value itself, and then the parts of the value in order,
each against a field of its own and at a path of its own.  So an error has the path of the
innermost part that fails, which is the first one to fail at every level on the way.
-/

namespace SchemaTree

/-- A step from a value to a part of it: to a member or to the value of a key, or to an item. -/
inductive Path.Step where
  | member (name : String)
  | item (index : Nat)

namespace Path

/-- What a step adds to a path. -/
def Step.text : Step → String
  | member name => "." ++ name
  | item index => "[" ++ toString index ++ "]"

/-- The path of the part that a step leads to. -/
def Step.after (path : String) : Step → String
  | member name => below path name
  | item index => Path.item path index

/-- What a row of steps adds to a path. -/
def route : List Step → String
  | [] => ""
  | step :: steps => step.text ++ route steps

/-- Below a path that is not empty, steps are added one by one. -/
theorem Step.after_eq {path : String} (nonempty : path ≠ "") (step : Step) :
    step.after path = path ++ step.text := by
  cases step with
  | member name => simp [after, text, below, nonempty, child, String.append_assoc]
  | item index => simp [after, text, Path.item, String.append_assoc]

theorem Step.after_ne_empty {path : String} (nonempty : path ≠ "") (step : Step) :
    step.after path ≠ "" := by
  rw [step.after_eq nonempty]
  simp [nonempty]

end Path

/-- A part of a value, with the field that it is checked against. -/
structure Part where
  step : Path.Step
  field : Field
  value : Value

namespace Part

/-- An item of a list, with its place. -/
def ofItem (element : Field) (item : Value × Nat) : Part :=
  ⟨.item item.2, element, item.1⟩

/-- The value of a key. -/
def ofEntry (element : Field) (entry : Value × Value) : Part :=
  ⟨.member entry.1.keyLabel, element, entry.2⟩

/-- The member of a document that has a field; a missing one counts as null. -/
def ofMember (members : List (String × Value)) (entry : String × Field) : Part :=
  ⟨.member entry.1, entry.2, memberOrNull members entry.1⟩

end Part

namespace Field

/-- What a field checks of a value itself, leaving its parts aside. -/
def checkHere (field : Field) (value : Value) : Except Violation Unit :=
  if value.isNull then ensure (!field.required) .required
  else match field.kind with
    | .list flavor _ => (flavor.itemsOf value).map fun _ => ()
    | .dict flavor _ => (flavor.entriesOf value).map fun _ => ()
    | .embedded nested => (value.membersOf nested.documentType).map fun _ => ()
    | kind => kind.checkScalar value

/-- The parts of a value that a field checks, in order: the items of a list and the values of a
dict that are not null, and the members of a document. -/
def parts (field : Field) (value : Value) : List Part :=
  match field.kind, value with
  | .list flavor (some element), .list items =>
      if flavor.checksItems then
        (items.zipIdx.filter fun item => !item.1.isNull).map (Part.ofItem element)
      else []
  | .dict _ (some element), .dict entries =>
      (entries.filter fun entry => !entry.2.isNull).map (Part.ofEntry element)
  | .embedded nested, .document _ members =>
      nested.fields.map (Part.ofMember members)
  | _, _ => []

/-- Whether a value is valid, wherever it is. -/
def Validates (field : Field) (value : Value) : Prop :=
  ∀ path, field.validateAt path value = .ok ()

/-- How steps lead from a value to a part inside: each to a part of a value that its field finds
nothing wrong with, past parts that are valid. -/
inductive LeadsTo : Field → Value → List Path.Step → Field → Value → Prop
  | here (field : Field) (value : Value) : LeadsTo field value [] field value
  | into {field inner : Field} {value innermost : Value} {part : Part} {before after : List Part}
      {steps : List Path.Step} (passed : field.checkHere value = .ok ())
      (isPart : field.parts value = before ++ part :: after)
      (earlier : ∀ other ∈ before, other.field.Validates other.value)
      (below : LeadsTo part.field part.value steps inner innermost) :
      LeadsTo field value (part.step :: steps) inner innermost

variable {field : Field} {value : Value} {path : String}

theorem validateAt_of_present (present : value.isNull = false) :
    field.validateAt path value = field.check path value := by
  rw [validateAt, present]
  rfl

/-- A part is checked against the element, or against an effective field of the document. -/
theorem field_of_mem_parts {part : Part} (isPart : part ∈ field.parts value) :
    field.element = some part.field ∨
      ∃ nested, field.embedded? = some nested ∧ ∃ entry ∈ nested.fields, entry.2 = part.field := by
  obtain ⟨attributes, kind⟩ := field
  unfold parts at isPart
  split at isPart
  · next flavor element items isList =>
      obtain rfl : kind = .list flavor (some element) := isList
      split at isPart
      · obtain ⟨item, _, rfl⟩ := List.mem_map.mp isPart
        exact .inl rfl
      · contradiction
  · next flavor element entries isDict =>
      obtain rfl : kind = .dict flavor (some element) := isDict
      obtain ⟨entry, _, rfl⟩ := List.mem_map.mp isPart
      exact .inl rfl
  · next nested type members isEmbedded =>
      obtain rfl : kind = .embedded nested := isEmbedded
      obtain ⟨entry, isEntry, rfl⟩ := List.mem_map.mp isPart
      exact .inr ⟨nested, rfl, entry, isEntry, rfl⟩
  · contradiction

/-- Induction on the fields that check the parts of a value. -/
@[elab_as_elim]
theorem checked_induction {motive : Field → Prop}
    (step : ∀ field : Field, (∀ value, ∀ part ∈ field.parts value, motive part.field) →
      motive field) (field : Field) : motive field := by
  induction field using parts_induction with
  | step field ofElement ofMember =>
      refine step field fun value part isPart => ?_
      rcases field_of_mem_parts isPart with isElement | ⟨nested, isEmbedded, entry, isEntry, same⟩
      · exact ofElement part.field isElement
      · exact same ▸ ofMember nested isEmbedded entry isEntry

/-! ## One level of a validation -/

theorem checkMembers_eq_checkEach (path : String) (members : List (String × Value))
    (fields : List (String × Field)) :
    checkMembers path members fields = checkEach (fun entry : String × Field =>
      entry.2.validateAt (Path.below path entry.1) (memberOrNull members entry.1)) fields := by
  induction fields with
  | nil => rfl
  | cons entry rest inductionHypothesis =>
      rw [checkMembers, checkEach, inductionHypothesis]
      rfl

/-- The check of the parts of a value, each at its own path. -/
def checkParts (path : String) (parts : List Part) : Except Error Unit :=
  checkEach (fun part => part.field.validateAt (part.step.after path) part.value) parts

theorem checkParts_map {α : Type} {path : String} (f : α → Part) (items : List α) :
    checkParts path (items.map f) = checkEach (fun item =>
      (f item).field.validateAt ((f item).step.after path) (f item).value) items :=
  checkEach_map _ f items

/-- Parts that are not null are checked, and the others are skipped. -/
theorem checkParts_present {α : Type} (f : α → Part) (items : List α) :
    checkParts path ((items.filter fun item => !(f item).value.isNull).map f) =
      checkEach (fun item => if (f item).value.isNull then .ok ()
        else (f item).field.check ((f item).step.after path) (f item).value) items := by
  rw [checkParts_map, ← checkEach_skip]
  refine congrArg (checkEach · items) (funext fun item => ?_)
  cases present : (f item).value.isNull with
  | true => rfl
  | false => rw [validateAt_of_present present]

theorem validateAt_list {attributes : Attributes} {flavor : ListFlavor} {element : Field}
    (present : value.isNull = false) :
    Field.validateAt ⟨attributes, .list flavor (some element)⟩ path value =
      (located path (flavor.itemsOf value)).bind fun _ =>
        checkParts path (parts ⟨attributes, .list flavor (some element)⟩ value) := by
  rw [validateAt_of_present present, check]
  cases areItems : flavor.itemsOf value with
  | error violation => rfl
  | ok entries =>
      cases checksItems : flavor.checksItems with
      | true =>
          obtain ⟨items, rfl, rfl⟩ := ListFlavor.itemsOf_eq_ok checksItems areItems
          simp only [located, Except.bind, parts, checksItems, if_true]
          rw [checkEach_map]
          exact (checkParts_present (Part.ofItem element) items.zipIdx).symm
      | false =>
          obtain rfl : entries = [] := ListFlavor.itemsOf_eq_nil checksItems areItems
          have noParts : parts ⟨attributes, .list flavor (some element)⟩ value = [] := by
            cases value <;> simp [parts, checksItems]
          rw [noParts]
          rfl

theorem validateAt_dict {attributes : Attributes} {flavor : DictFlavor} {element : Field}
    (present : value.isNull = false) :
    Field.validateAt ⟨attributes, .dict flavor (some element)⟩ path value =
      (located path (flavor.entriesOf value)).bind fun _ =>
        checkParts path (parts ⟨attributes, .dict flavor (some element)⟩ value) := by
  rw [validateAt_of_present present, check]
  cases areEntries : flavor.entriesOf value with
  | error violation => rfl
  | ok entries =>
      obtain ⟨rfl, _⟩ := DictFlavor.entriesOf_eq_ok_iff.mp areEntries
      exact (checkParts_present (Part.ofEntry element) entries).symm

theorem validateAt_embedded {attributes : Attributes} {nested : Embedded}
    (present : value.isNull = false) :
    Field.validateAt ⟨attributes, .embedded nested⟩ path value =
      (located path (value.membersOf nested.documentType)).bind fun _ =>
        checkParts path (parts ⟨attributes, .embedded nested⟩ value) := by
  obtain ⟨documentType, declared, displaced, fields, view⟩ := nested
  rw [validateAt_of_present present, check, Embedded.check]
  cases areMembers : value.membersOf documentType with
  | error violation => rfl
  | ok members =>
      obtain ⟨type, rfl⟩ := Value.membersOf_eq_ok areMembers
      exact (checkMembers_eq_checkEach path members fields).trans
        (checkParts_map (Part.ofMember members) fields).symm

theorem parts_null (field : Field) : field.parts .null = [] := by
  unfold parts
  split <;> first | contradiction | rfl

theorem located_map_bind {α β γ : Type} (path : String) (outcome : Except Violation α) (f : α → β)
    (next : Except Error γ) :
    ((located path (outcome.map f)).bind fun _ => next) =
      (located path outcome).bind fun _ => next := by
  cases outcome <;> rfl

theorem located_unit {α : Type} (path : String) (outcome : Except Violation α) :
    (located path outcome).map (fun _ => ()) =
      (located path (outcome.map fun _ => ())).bind fun _ => .ok () := by
  cases outcome <;> rfl

theorem bind_ok_unit {ε : Type} (outcome : Except ε Unit) :
    (outcome.bind fun _ => .ok ()) = outcome := by
  cases outcome <;> rfl

/-- A validation is the check of the value itself, and then that of its parts. -/
theorem validateAt_eq (field : Field) (path : String) (value : Value) :
    field.validateAt path value =
      (located path (field.checkHere value)).bind fun _ => checkParts path (field.parts value) := by
  cases missing : value.isNull with
  | true =>
      cases value with
      | null =>
          rw [parts_null, validateAt, checkHere, checkMissing]
          cases field.required <;> rfl
      | _ => contradiction
  | false =>
      obtain ⟨attributes, kind⟩ := field
      rw [checkHere, missing]
      cases kind with
      | list flavor element =>
          cases element with
          | none => exact (validateAt_of_present missing).trans (located_unit ..)
          | some element => exact (validateAt_list missing).trans (located_map_bind ..).symm
      | dict flavor element =>
          cases element with
          | none => exact (validateAt_of_present missing).trans (located_unit ..)
          | some element => exact (validateAt_dict missing).trans (located_map_bind ..).symm
      | embedded nested => exact (validateAt_embedded missing).trans (located_map_bind ..).symm
      | _ => exact (validateAt_of_present missing).trans (bind_ok_unit _).symm

/-! ## All levels -/

/-- Whether a value is valid does not depend on where it is. -/
theorem validates_of_validateAt (valid : field.validateAt path value = .ok ()) :
    field.Validates value := by
  induction field using checked_induction generalizing path value with
  | step field ofPart =>
      intro other
      rw [validateAt_eq, bind_eq_ok_iff] at valid ⊢
      obtain ⟨_, passed, eachPart⟩ := valid
      refine ⟨(), located_eq_ok_iff.mpr (located_eq_ok_iff.mp passed), ?_⟩
      refine (checkEach_eq_ok_iff _ _).mpr fun part isPart => ?_
      exact ofPart value part isPart ((checkEach_eq_ok_iff _ _).mp eachPart part isPart) _

/-- How a validation fails: at the value itself, or at the first part that is not valid. -/
theorem validateAt_eq_error_iff {error : Error} :
    field.validateAt path value = .error error ↔
      (∃ violation, field.checkHere value = .error violation ∧
          error = .invalid (some path) violation) ∨
        field.checkHere value = .ok () ∧ ∃ before part after,
          field.parts value = before ++ part :: after ∧
          (∀ other ∈ before, other.field.Validates other.value) ∧
          part.field.validateAt (part.step.after path) part.value = .error error := by
  have validates : ∀ other : Part, other.field.validateAt (other.step.after path) other.value =
      .ok () ↔ other.field.Validates other.value :=
    fun other => ⟨validates_of_validateAt, fun valid => valid _⟩
  rw [validateAt_eq, bind_eq_error_iff, located_eq_error_iff, checkParts, checkEach_eq_error_iff]
  simp only [validates, located_eq_ok_iff]
  exact or_congr_right ⟨fun ⟨_, failed⟩ => failed, fun failed => ⟨(), failed⟩⟩

/-- A failure has the path of the innermost part that fails, and its violation. -/
theorem exists_leadsTo {error : Error} (nonempty : path ≠ "")
    (failed : field.validateAt path value = .error error) :
    ∃ steps inner innermost violation, field.LeadsTo value steps inner innermost ∧
      inner.checkHere innermost = .error violation ∧
      error = .invalid (some (path ++ Path.route steps)) violation := by
  induction field using checked_induction generalizing path value with
  | step field ofPart =>
      rcases validateAt_eq_error_iff.mp failed with
        ⟨violation, broken, rfl⟩ | ⟨passed, before, part, after, isPart, earlier, partFailed⟩
      · exact ⟨[], field, value, violation, .here field value, broken, by simp [Path.route]⟩
      · have inParts : part ∈ field.parts value := by simp [isPart]
        obtain ⟨steps, inner, innermost, violation, leads, broken, rfl⟩ :=
          ofPart value part inParts (part.step.after_ne_empty nonempty) partFailed
        refine ⟨part.step :: steps, inner, innermost, violation,
          .into passed isPart earlier leads, broken, ?_⟩
        rw [part.step.after_eq nonempty, Path.route, String.append_assoc]

/-- What is wrong at the end of some steps is reported there. -/
theorem LeadsTo.validateAt_eq_error {steps : List Path.Step} {inner : Field} {innermost : Value}
    (leads : field.LeadsTo value steps inner innermost) {violation : Violation}
    (broken : inner.checkHere innermost = .error violation) (nonempty : path ≠ "") :
    field.validateAt path value =
      .error (.invalid (some (path ++ Path.route steps)) violation) := by
  induction leads generalizing path with
  | here field value =>
      exact validateAt_eq_error_iff.mpr (.inl ⟨violation, broken, by simp [Path.route]⟩)
  | @into field inner value innermost part before after steps passed isPart earlier _
      inductionHypothesis =>
      have partFailed := inductionHypothesis broken (part.step.after_ne_empty nonempty)
      rw [part.step.after_eq nonempty, String.append_assoc] at partFailed
      refine validateAt_eq_error_iff.mpr (.inr ⟨passed, before, part, after, isPart, earlier, ?_⟩)
      rw [part.step.after_eq nonempty]
      exact partFailed

/-- Validation succeeds at all paths or at none, and fails exactly if some steps lead past valid
parts to one that its field finds something wrong with.  The error is that of the innermost part,
which is validated with the same outcome at the path of the error. -/
theorem validation_names_innermost_failure (field : Field) (value : Value) {path : String}
    (nonempty : path ≠ "") :
    (∀ other, field.validateAt other value = .ok () ↔ field.validateAt path value = .ok ()) ∧
      ∀ error, field.validateAt path value = .error error ↔
        ∃ steps inner innermost violation, field.LeadsTo value steps inner innermost ∧
          inner.checkHere innermost = .error violation ∧
          error = .invalid (some (path ++ Path.route steps)) violation ∧
          inner.validateAt (path ++ Path.route steps) innermost = .error error := by
  refine ⟨fun other => ⟨fun valid => validates_of_validateAt valid _,
    fun valid => validates_of_validateAt valid _⟩, fun error => ⟨fun failed => ?_, ?_⟩⟩
  · obtain ⟨steps, inner, innermost, violation, leads, broken, rfl⟩ :=
      exists_leadsTo nonempty failed
    exact ⟨steps, inner, innermost, violation, leads, broken, rfl,
      validateAt_eq_error_iff.mpr (.inl ⟨violation, broken, rfl⟩)⟩
  · rintro ⟨steps, inner, innermost, violation, leads, broken, rfl, _⟩
    exact leads.validateAt_eq_error broken nonempty

end Field

/-- Books with a title that is required. -/
def bookType : DocumentType :=
  ⟨"Book", none, [("title", (Field.string "title").setRequired true)]⟩

/-- Lists of books by the number of their shelf. -/
def shelvesField : Field :=
  .intDict "shelves" (some (.embeddedList "books" bookType))

/-- A shelf with a book, a gap and a book without a title. -/
def shelves : Value :=
  .dict [(.int 3, .list [.document bookType [("title", .string "Emma")], .null,
    .document bookType []])]

theorem validation_names_innermost_failure_shelves :
    "room" ≠ "" ∧
      shelvesField.validateAt "room" shelves =
        .error (.invalid (some "room.3[2].title") .required) ∧
      ∃ steps inner innermost violation, shelvesField.LeadsTo shelves steps inner innermost ∧
        inner.checkHere innermost = .error violation ∧
        Error.invalid (some "room.3[2].title") .required =
          .invalid (some ("room" ++ Path.route steps)) violation ∧
        inner.validateAt ("room" ++ Path.route steps) innermost =
          .error (.invalid (some "room.3[2].title") .required) := by
  have nonempty : "room" ≠ "" := by decide
  have failed : shelvesField.validateAt "room" shelves =
      .error (.invalid (some "room.3[2].title") .required) := by rfl
  exact ⟨nonempty, failed,
    ((Field.validation_names_innermost_failure shelvesField shelves nonempty).2 _).mp failed⟩

end SchemaTree
