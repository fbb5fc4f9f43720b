import Mathlib.Logic.Relation
import SchemaTree.Field.Constructors
import SchemaTree.Field.Virtual
import SchemaTree.Proofs.Embedded.Edits
import SchemaTree.Proofs.Field.Binding
import SchemaTree.Proofs.Mapping
import SchemaTree.Schema

/-!
The life of an expression.  A field is asked to become virtual, to take another expression and to
give its expression or the compiled stage of it, while the field, or one that it is a part of, is
attached, moved and detached.  Whatever the order, a compiled stage is always the one of the
current path and the current expression, and it is compiled once only.
-/

namespace SchemaTree

namespace Field

/-- What a field can be asked about its expression. -/
inductive Call where
  | declareVirtual (source : Json)
  | setExpression (source : Option Json)
  | getExpression
  | compiledStage

/-- Whether a call leaves the expression as it is. -/
def Call.isRead : Call → Bool
  | declareVirtual _ | setExpression _ => false
  | getExpression | compiledStage => true

/-- A call in a store, with the field and the store after it. -/
def call (field : Field) (store : Store) : Call → Except Error (Field × Store)
  | .declareVirtual source => (field.declareVirtual source).map fun after => (after, store)
  | .setExpression source => (field.setExpression source).map fun after => (after, store)
  | .getExpression => (field.getExpression store).map fun answer => (answer.2.field, answer.2.store)
  | .compiledStage => (field.compiledStage store).map fun answer => (answer.2.field, answer.2.store)

/-- A field and a store after a call, successful or not. -/
def after (field : Field) (store : Store) (call : Call) : Field × Store :=
  match field.call store call with
  | .ok outcome => outcome
  | .error _ => (field, store)

/-- Whether a call fails.  A field becomes virtual once and cannot lose its expression, and an
expression is compiled in the store of the dataset that the field is attached to. -/
def Refuses (field : Field) (store : Store) : Call → Prop
  | .declareVirtual _ => field.isVirtual = true
  | .setExpression source => source.isSome ≠ field.isVirtual
  | .getExpression => field.isVirtual = true ∧
      ∃ binding, field.binding = some binding ∧ binding.dataset ≠ store.dataset
  | .compiledStage => field.isVirtual = true ∧
      ∀ binding, field.binding = some binding → binding.dataset ≠ store.dataset

/-- Whether there is nothing to compile: the field is detached, or its expression, if it has one,
is compiled. -/
def UpToDate (field : Field) : Prop :=
  ∀ binding source, field.binding = some binding → field.expression ≠ some ⟨source, none⟩

/-- Whether the expression of a field is compiled in a later state of it, and was not before. -/
structure Compiles (before after : Field) : Prop where
  isVirtual : before.isVirtual = true
  isUncompiled : before.stage = none
  isCompiled : after.stage ≠ none

/-- The field with the stage of an expression for the path of a binding. -/
def compiledFor (field : Field) (binding : Binding) (source : Json) : Field :=
  field.modifyAttributes fun attributes =>
    { attributes with
      expression := some ⟨source, some (.object [("$set", .object [(binding.path, source)])])⟩ }

/-- All that a call can do to a field in a store. -/
inductive Outcome (field : Field) (store : Store) (call : Call) :
    Except Error (Field × Store) → Prop
  | refused (refuses : field.Refuses store call) (error : Error) :
      Outcome field store call (.error error)
  | kept (accepts : ¬ field.Refuses store call) (isUpToDate : call.isRead = true → field.UpToDate) :
      Outcome field store call (.ok (field, store))
  | replaced (accepts : ¬ field.Refuses store call) (isWrite : call.isRead = false)
      (source : Json) : Outcome field store call (.ok (field.withExpression source, store))
  | compiled (accepts : ¬ field.Refuses store call) {binding : Binding} {source : Json}
      (isBound : field.binding = some binding)
      (isUncompiled : field.expression = some ⟨source, none⟩) :
      Outcome field store call (.ok (field.compiledFor binding source,
        { store with compilations := store.compilations + 1 }))

section Calls

variable {field found : Field} {store later : Store} {call : Call}

theorem isVirtual_eq (field : Field) : field.isVirtual = field.expression.isSome :=
  rfl

/-- Compiling takes the store of the dataset that a field is attached to, and changes both only if
there is something to compile. -/
theorem compile_cases (field : Field) (store : Store) :
    (∃ error, field.compile store = .error error ∧
        ∀ binding, field.binding = some binding → binding.dataset ≠ store.dataset) ∨
      ∃ binding, field.binding = some binding ∧ binding.dataset = store.dataset ∧
        ((field.compile store = .ok ⟨field, store, []⟩ ∧ field.UpToDate) ∨
          ∃ source events, field.expression = some ⟨source, none⟩ ∧
            field.compile store = .ok ⟨field.compiledFor binding source,
              { store with compilations := store.compilations + 1 }, events⟩) := by
  unfold compile checkOwner
  cases isBound : field.binding with
  | none => exact .inl ⟨_, rfl, nofun⟩
  | some binding =>
      by_cases isOwner : binding.dataset = store.dataset
      · refine .inr ⟨binding, rfl, isOwner, ?_⟩
        simp only [isOwner, if_true, Except.map]
        cases isExpression : field.expression with
        | none => exact .inl ⟨rfl, by simp [UpToDate, isExpression]⟩
        | some expression =>
            obtain ⟨source, _ | stage⟩ := expression
            · exact .inr ⟨source, _, rfl, rfl⟩
            · exact .inl ⟨rfl, by simp [UpToDate, isExpression]⟩
      · refine .inl ⟨_, by simp only [if_neg isOwner]; rfl, ?_⟩
        rintro _ ⟨⟩
        exact isOwner

theorem upToDate_of_isVirtual_eq_false (isRegular : field.isVirtual = false) : field.UpToDate := by
  intro binding source _ isExpression
  simp [isVirtual_eq, isExpression] at isRegular

theorem outcome_of_compile
    (refuses_iff : field.Refuses store call ↔
      ∀ binding, field.binding = some binding → binding.dataset ≠ store.dataset) :
    field.Outcome store call
      ((field.compile store).map fun compilation => (compilation.field, compilation.store)) := by
  rcases field.compile_cases store with ⟨error, isError, notOwner⟩ |
    ⟨binding, isBound, isOwner, ⟨isOk, isUpToDate⟩ | ⟨source, events, isUncompiled, isOk⟩⟩
  · rw [isError]
    exact .refused (refuses_iff.mpr notOwner) error
  · rw [isOk]
    exact .kept (fun refuses => refuses_iff.mp refuses binding isBound isOwner) fun _ => isUpToDate
  · rw [isOk]
    exact .compiled (fun refuses => refuses_iff.mp refuses binding isBound isOwner) isBound
      isUncompiled

theorem outcome_call (field : Field) (store : Store) (call : Call) :
    field.Outcome store call (field.call store call) := by
  cases call with
  | declareVirtual source =>
      simp only [Field.call, declareVirtual]
      cases isVirtual : field.isVirtual with
      | true =>
          have refuses : field.Refuses store (.declareVirtual source) := isVirtual
          exact .refused refuses _
      | false => exact .replaced (by simp [Refuses, isVirtual]) rfl source
  | setExpression given =>
      simp only [Field.call, setExpression]
      have refuses_iff : field.Refuses store (.setExpression given) ↔
          given.isSome ≠ field.expression.isSome := Iff.rfl
      cases isExpression : field.expression with
      | none =>
          cases given with
          | none => exact .kept (by simp [refuses_iff, isExpression]) nofun
          | some source => exact .refused (by simp [refuses_iff, isExpression]) _
      | some expression =>
          cases given with
          | none => exact .refused (by simp [refuses_iff, isExpression]) _
          | some source => exact .replaced (by simp [refuses_iff, isExpression]) rfl source
  | getExpression =>
      by_cases isAsked : field.isAttached && field.isVirtual
      · obtain ⟨isAttached, isVirtual⟩ := Bool.and_eq_true_iff.mp isAsked
        obtain ⟨binding, isBound⟩ := Option.isSome_iff_exists.mp isAttached
        have read : field.call store .getExpression =
            (field.compile store).map fun compilation =>
              (compilation.field, compilation.store) := by
          simp only [Field.call, getExpression, isAsked, if_true]
          cases field.compile store <;> rfl
        rw [read]
        exact outcome_of_compile (by simp [Refuses, isVirtual, isBound])
      · -- A detached field gives its source as it is, in any store.
        have read : field.call store .getExpression = .ok (field, store) := by
          simp only [Field.call, getExpression, isAsked]
          rfl
        rw [read]
        refine .kept ?_ fun _ binding source isBound isExpression => isAsked ?_
        · rintro ⟨isVirtual, binding, isBound, _⟩
          exact isAsked (by simp [isVirtual, isAttached, isBound])
        · simp [isVirtual_eq, isAttached, isBound, isExpression]
  | compiledStage =>
      cases isVirtual : field.isVirtual with
      | false =>
          have read : field.call store .compiledStage = .ok (field, store) := by
            simp only [Field.call, compiledStage, isVirtual]
            rfl
          rw [read]
          have isUpToDate := upToDate_of_isVirtual_eq_false isVirtual
          exact .kept (by simp [Refuses, isVirtual]) fun _ => isUpToDate
      | true =>
          have read : field.call store .compiledStage =
              (field.compile store).map fun compilation =>
                (compilation.field, compilation.store) := by
            simp only [Field.call, compiledStage, isVirtual, if_true]
            cases field.compile store <;> rfl
          rw [read]
          exact outcome_of_compile (by simp [Refuses, isVirtual])

/-! ## Single calls -/

theorem refuses_iff : field.Refuses store call ↔ ∃ error, field.call store call = .error error := by
  have outcome := field.outcome_call store call
  constructor
  · intro refuses
    generalize field.call store call = result at outcome ⊢
    cases outcome with
    | refused _ error => exact ⟨error, rfl⟩
    | kept accepts | replaced accepts | compiled accepts => exact absurd refuses accepts
  · rintro ⟨error, isError⟩
    rw [isError] at outcome
    cases outcome with
    | refused refuses => exact refuses

/-- A call that fails changes nothing. -/
theorem after_of_refuses (refuses : field.Refuses store call) :
    field.after store call = (field, store) := by
  obtain ⟨error, isError⟩ := refuses_iff.mp refuses
  simp [after, isError]

/-- All that a call can do, successful or not. -/
theorem after_cases (field : Field) (store : Store) (call : Call) :
    field.after store call = (field, store) ∨
      (∃ source, field.after store call = (field.withExpression source, store)) ∨
      ∃ binding source, field.binding = some binding ∧ field.expression = some ⟨source, none⟩ ∧
        field.after store call =
          (field.compiledFor binding source,
            { store with compilations := store.compilations + 1 }) := by
  have outcome := field.outcome_call store call
  unfold after
  generalize field.call store call = result at outcome ⊢
  cases outcome with
  | refused | kept => exact .inl rfl
  | replaced accepts isWrite source => exact .inr (.inl ⟨source, rfl⟩)
  | compiled accepts isBound isUncompiled => exact .inr (.inr ⟨_, _, isBound, isUncompiled, rfl⟩)

/-- A store counts the calls that compile an expression, and a call does nothing else to it. -/
theorem counts_compilations (field : Field) (store : Store) (call : Call) :
    field.Compiles (field.after store call).1 ∧
        (field.after store call).2 = { store with compilations := store.compilations + 1 } ∨
      ¬ field.Compiles (field.after store call).1 ∧ (field.after store call).2 = store := by
  rcases field.after_cases store call with
    same | ⟨source, same⟩ | ⟨binding, source, _, isUncompiled, same⟩ <;> rw [same]
  · exact .inr ⟨fun compiles => compiles.isCompiled compiles.isUncompiled, rfl⟩
  · exact .inr ⟨fun compiles => compiles.isCompiled rfl, rfl⟩
  · refine .inl ⟨⟨?_, ?_, ?_⟩, rfl⟩
    · simp [isVirtual_eq, isUncompiled]
    · simp [stage, isUncompiled]
    · simp [stage, expression, compiledFor, modifyAttributes]

/-- Asking for what is up to date changes nothing. -/
theorem after_of_upToDate (isUpToDate : field.UpToDate) (isRead : call.isRead = true) :
    field.after store call = (field, store) := by
  have outcome := field.outcome_call store call
  unfold after
  generalize field.call store call = result at outcome ⊢
  cases outcome with
  | refused | kept => rfl
  | replaced accepts isWrite => simp [isRead] at isWrite
  | compiled accepts isBound isUncompiled => exact absurd isUncompiled (isUpToDate _ _ isBound)

/-- A field that answered when it was asked is up to date. -/
theorem upToDate_of_read (isRead : call.isRead = true)
    (isOk : field.call store call = .ok (found, later)) : found.UpToDate := by
  have outcome := field.outcome_call store call
  rw [isOk] at outcome
  cases outcome with
  | kept accepts isUpToDate => exact isUpToDate isRead
  | replaced accepts isWrite => simp [isRead] at isWrite
  | compiled =>
      intro _ _ _ isUncompiled
      simp [expression, compiledFor, modifyAttributes] at isUncompiled

end Calls

/-! ## Moves -/

/-- A turn on the way to a field inside another one. -/
inductive Turn where
  | element
  | member (name : String)

/-- The effective field that a way leads to. -/
def partAt? : List Turn → Field → Option Field
  | [], field => some field
  | .element :: rest, field => field.element.bind (partAt? rest)
  | .member name :: rest, field =>
      (field.embedded?.bind fun nested => Mapping.lookup nested.fields name).bind (partAt? rest)

/-- What becomes of a field that a schema is given or gives back, or that is in one that is
attached or detached. -/
inductive Moves : Field → Field → Prop
  | declared {schema after : Schema} {dataset : Option Uuid} {event : Event} {field moved : Field}
      (isDeclared : schema.declare dataset field = .ok (after, event))
      (isFound : Mapping.lookup after field.name = some moved) : Moves field moved
  | attached {schema : Schema} {name : String} {field moved : Field} (dataset : Uuid)
      (isField : Mapping.lookup schema name = some field)
      (isFound : Mapping.lookup (schema.attach dataset) name = some moved) : Moves field moved
  | detached {schema : Schema} {name : String} {field moved : Field}
      (isField : Mapping.lookup schema name = some field)
      (isFound : Mapping.lookup schema.detach name = some moved) : Moves field moved
  | removed {schema rest : Schema} {name : String} {field moved : Field}
      (isField : Mapping.lookup schema name = some field)
      (isRemoved : schema.remove name = some (moved, rest)) : Moves field moved

/-- One step in the life of a field: a call in some store, or a move of a field that it is a part
of. -/
inductive Step : Field → Field → Prop
  | call (field : Field) (store : Store) (call : Call) : Step field (field.after store call).1
  | moved {outer moved field found : Field} (moves : Moves outer moved) (way : List Turn)
      (isPart : partAt? way outer = some field) (isFound : partAt? way moved = some found) :
      Step field found

section Moved

variable {field found moved outer : Field} {way : List Turn}

theorem partAt?_rebind (way : List Turn) (field : Field) (binding : Option Binding) :
    ∃ inner, partAt? way (field.rebind binding) = (partAt? way field).map (rebind inner) := by
  induction way generalizing field binding with
  | nil => exact ⟨binding, rfl⟩
  | cons turn rest inductionHypothesis =>
      cases turn with
      | element =>
          simp only [partAt?, element_rebind]
          cases field.element with
          | none => exact ⟨none, rfl⟩
          | some element => exact inductionHypothesis element binding
      | member name =>
          simp only [partAt?, embedded?_rebind]
          cases field.embedded? with
          | none => exact ⟨none, rfl⟩
          | some nested =>
              simp only [Option.map_some, Option.bind_some, Embedded.fields_rebind,
                lookup_rebindEntries]
              cases Mapping.lookup nested.fields name with
              | none => exact ⟨none, rfl⟩
              | some member => exact inductionHypothesis member _

theorem partAt?_inheritFlags (previous : Option Field) (isPart : partAt? way outer = some field) :
    ∃ replaced, partAt? way (Embedded.inheritFlags outer previous) =
      some (Embedded.inheritFlags field replaced) := by
  cases way with
  | nil =>
      obtain rfl := Option.some.inj isPart
      exact ⟨previous, rfl⟩
  | cons turn rest =>
      refine ⟨none, ?_⟩
      rw [show Embedded.inheritFlags field none = field from rfl, ← isPart]
      cases previous <;> cases turn <;> rfl

/-- A move gives a field another binding, and perhaps the flags of one that it replaces. -/
theorem Moves.exists_rebind (moves : Moves outer moved) :
    ∃ previous binding, moved = (Embedded.inheritFlags outer previous).rebind binding := by
  cases moves with
  | @declared schema after dataset event _ _ isDeclared isFound =>
      unfold Schema.declare at isDeclared
      cases checked : checkFieldName outer.name with
      | error error => simp [checked] at isDeclared
      | ok =>
          simp only [checked, Except.ok.injEq, Prod.mk.injEq] at isDeclared
          rw [← isDeclared.1] at isFound
          rcases Embedded.lookup_erase_append isFound with ⟨different, _⟩ | ⟨_, rfl⟩
          · contradiction
          · exact ⟨_, _, rfl⟩
  | attached dataset isField isFound =>
      simp only [Schema.attach, Mapping.lookup_mapValues, isField, Option.map_some,
        Option.some.injEq] at isFound
      exact ⟨none, _, isFound.symm⟩
  | detached isField isFound =>
      simp only [Schema.detach, Mapping.lookup_mapValues, isField, Option.map_some,
        Option.some.injEq] at isFound
      exact ⟨none, none, isFound.symm⟩
  | removed isField isRemoved =>
      simp only [Schema.remove, isField, Option.map_some, Option.some.injEq,
        Prod.mk.injEq] at isRemoved
      exact ⟨none, none, isRemoved.1.symm⟩

theorem expression_inheritFlags (field : Field) (previous : Option Field) :
    (Embedded.inheritFlags field previous).expression = field.expression := by
  cases previous <;> rfl

/-- A move keeps the source of an expression, but not its stage. -/
theorem expression_of_moves (moves : Moves outer moved) (isPart : partAt? way outer = some field)
    (isFound : partAt? way moved = some found) :
    found.expression = field.expression.map Expression.uncompiled := by
  obtain ⟨previous, binding, rfl⟩ := moves.exists_rebind
  obtain ⟨replaced, isKept⟩ := partAt?_inheritFlags previous isPart
  obtain ⟨inner, isRebound⟩ := partAt?_rebind way (Embedded.inheritFlags outer previous) binding
  rw [isRebound, isKept, Option.map_some, Option.some.injEq] at isFound
  rw [← isFound, expression_rebind, expression_inheritFlags]

end Moved

/-! ## Runs -/

/-- A field as the constructors and builders give it.  Those of documents copy the fields that they
are given. -/
inductive Fresh : Field → Prop
  | ofKind (name : String) (kind : Kind) : Fresh (.ofKind name kind)
  | renamed {field : Field} (isFresh : Fresh field) (name : String) : Fresh (field.renamed name)
  | setDescription {field : Field} (isFresh : Fresh field) (description : Option String) :
      Fresh (field.setDescription description)
  | setInfo {field : Field} (isFresh : Fresh field) (info : Option (List (String × Json))) :
      Fresh (field.setInfo info)
  | setRequired {field : Field} (isFresh : Fresh field) (required : Bool) :
      Fresh (field.setRequired required)
  | setNullable {field : Field} (isFresh : Fresh field) (nullable : Bool) :
      Fresh (field.setNullable nullable)
  | withExpression {field : Field} (isFresh : Fresh field) (source : Json) :
      Fresh (field.withExpression source)
  | copy {field : Field} (isFresh : Fresh field) : Fresh field.copy

/-- Whether a stage, if there is one, is that of the expression at the path of the field. -/
def Current (field : Field) : Prop :=
  ∀ stage, field.stage = some stage → ∃ binding source, field.binding = some binding ∧
    field.source = some source ∧
    stage = .object [("$set", .object [(binding.path, source)])]

section Runs

variable {start field later found : Field}

theorem expression_renamed (field : Field) (name : String) :
    (field.renamed name).expression = field.expression := by
  obtain ⟨attributes, kind⟩ := field
  cases kind with
  | list flavor element => cases element <;> rfl
  | dict flavor element => cases element <;> rfl
  | _ => rfl

theorem Fresh.stage (isFresh : start.Fresh) : start.stage = none := by
  induction isFresh with
  | ofKind | withExpression => rfl
  | renamed _ name inductionHypothesis =>
      simpa [Field.stage, expression_renamed] using inductionHypothesis
  | copy => exact stage_rebind _ none
  | _ => assumption

theorem Step.isVirtual (step : Step field later) (isVirtual : field.isVirtual = true) :
    later.isVirtual = true := by
  cases step with
  | call _ store call =>
      rcases field.after_cases store call with
        same | ⟨source, same⟩ | ⟨binding, source, _, _, same⟩ <;> rw [same]
      · exact isVirtual
      · rfl
      · rfl
  | moved moves way isPart isFound =>
      rw [isVirtual_eq] at isVirtual ⊢
      simpa [expression_of_moves moves isPart isFound] using isVirtual

/-- One step leaves no stage behind that is not current: a call makes the current one or none, and
a move makes none. -/
theorem Step.current (step : Step field later) (isCurrent : field.Current) : later.Current := by
  cases step with
  | call _ store call =>
      rcases field.after_cases store call with
        same | ⟨source, same⟩ | ⟨binding, source, isBound, _, same⟩ <;> rw [same]
      · exact isCurrent
      · exact nofun
      · rintro stage ⟨⟩
        exact ⟨binding, source, isBound, rfl, rfl⟩
  | moved moves way isPart isFound =>
      intro stage isStage
      rw [Field.stage, expression_of_moves moves isPart isFound] at isStage
      cases isExpression : field.expression <;>
        simp [isExpression, Expression.uncompiled, Expression.ofSource] at isStage

theorem isVirtual_of_run (run : Relation.ReflTransGen Step field later)
    (isVirtual : field.isVirtual = true) : later.isVirtual = true := by
  induction run with
  | refl => exact isVirtual
  | tail _ step inductionHypothesis => exact step.isVirtual inductionHypothesis

theorem current_of_run (run : Relation.ReflTransGen Step field later)
    (isCurrent : field.Current) : later.Current := by
  induction run with
  | refl => exact isCurrent
  | tail _ step inductionHypothesis => exact step.current inductionHypothesis

/-- Whatever a fresh field went through, it stays virtual once it is, a compiled stage is that of
its path and its expression, a call that fails changes nothing, a store counts exactly the calls
that compile, and a field that has answered is not compiled when it is asked again. -/
theorem lifecycle (isFresh : start.Fresh) (run : Relation.ReflTransGen Step start field) :
    (field.isVirtual = true →
      ∀ later, Relation.ReflTransGen Step field later → later.isVirtual = true) ∧
    (∀ stage, field.stage = some stage → ∃ binding source, field.binding = some binding ∧
      field.source = some source ∧
      stage = .object [("$set", .object [(binding.path, source)])]) ∧
    ∀ store call,
      ((field.Refuses store call ↔ ∃ error, field.call store call = .error error) ∧
        (field.Refuses store call → field.after store call = (field, store))) ∧
      (field.Compiles (field.after store call).1 ∧
          (field.after store call).2 = { store with compilations := store.compilations + 1 } ∨
        ¬ field.Compiles (field.after store call).1 ∧ (field.after store call).2 = store) ∧
      ∀ found other, call.isRead = true → field.call store call = .ok (found, other) →
        ∀ again third, again.isRead = true → found.after third again = (found, third) := by
  refine ⟨fun isVirtual later onward => isVirtual_of_run onward isVirtual, ?_, ?_⟩
  · have isUncompiled := isFresh.stage
    exact current_of_run run fun stage isStage => by simp [isUncompiled] at isStage
  · intro store call
    refine ⟨⟨refuses_iff, after_of_refuses⟩, field.counts_compilations store call, ?_⟩
    intro found other isRead isOk again third isReadAgain
    exact after_of_upToDate (upToDate_of_read isRead isOk) isReadAgain

end Runs

/-- The area of a shape, computed from two others. -/
def area : Field :=
  (int "area").withExpression (.array [.string "width", .string "height"])

/-- The dataset that shapes are attached to. -/
def shapes : Uuid := ⟨List.replicate 16 3, rfl⟩

/-- The area, attached as a field of its schema, after it was asked for its compiled stage. -/
def compiledArea : Field :=
  ((area.bind shapes "area").after (.empty shapes) .compiledStage).1

theorem lifecycle_compiledArea :
    (area.Fresh ∧ Relation.ReflTransGen Step area compiledArea) ∧
      (∀ later, Relation.ReflTransGen Step compiledArea later → later.isVirtual = true) ∧
      (∃ stage, compiledArea.stage = some stage ∧ ∃ binding source,
        compiledArea.binding = some binding ∧ compiledArea.source = some source ∧
        stage = .object [("$set", .object [(binding.path, source)])]) ∧
      ∀ third, compiledArea.after third .getExpression = (compiledArea, third) := by
  have isFresh : area.Fresh := .withExpression (.ofKind "area" .int) _
  have isDeclared : Schema.declare [] (some shapes) area =
      .ok ([("area", area.bind shapes "area")], ⟨.fieldDeclared, [("path", "area")]⟩) := rfl
  have run : Relation.ReflTransGen Step area compiledArea :=
    (Relation.ReflTransGen.single (.moved (.declared isDeclared rfl) [] rfl rfl)).tail
      (.call _ _ _)
  obtain ⟨staysVirtual, isCurrent, calls⟩ := lifecycle isFresh run
  refine ⟨⟨isFresh, run⟩, staysVirtual rfl, ⟨_, rfl, isCurrent _ rfl⟩, fun third => ?_⟩
  exact (calls (.empty shapes) .compiledStage).2.2 _ _ rfl rfl .getExpression third rfl

end Field

end SchemaTree
