import SchemaTree.Log
import SchemaTree.Store

/-!
Virtual fields.  A field becomes virtual once and stays so; its expression can be replaced.  An
expression is compiled when it is first asked for in the store of the field's dataset, and is not
compiled again until the expression or the binding changes.
-/

namespace SchemaTree

/-- A field and a store after an expression was asked for, with what is to be logged. -/
structure Compilation where
  field : Field
  store : Store
  events : List Event

namespace Field

def expression (field : Field) : Option Expression :=
  field.attributes.expression

def source (field : Field) : Option Json :=
  field.expression.map Expression.source

/-- The compiled stage of a virtual field, if there is one. -/
def stage (field : Field) : Option Json :=
  field.expression.bind Expression.stage

def declareVirtual (field : Field) (source : Json) : Except Error Field :=
  if field.isVirtual then .error (.illegalTransition field.path .alreadyVirtual)
  else .ok (field.withExpression source)

/-- Replaces the expression of a virtual field.  A regular field has no expression, and a virtual
one cannot lose it. -/
def setExpression (field : Field) (source : Option Json) : Except Error Field :=
  match field.expression, source with
  | some _, some source => .ok (field.withExpression source)
  | none, none => .ok field
  | none, some _ => .error (.illegalTransition field.path .regularToVirtual)
  | some _, none => .error (.illegalTransition field.path .virtualToRegular)

/-- Fails unless a store has the dataset of a binding. -/
def checkOwner (field : Field) (binding : Binding) (store : Store) : Except Error Unit :=
  if binding.dataset = store.dataset then .ok ()
  else .error (.detached field.name
    (.otherDataset binding.dataset.text store.dataset.text))

/-- Compiles the expression of an attached field, unless it has a stage. -/
def compile (field : Field) (store : Store) : Except Error Compilation :=
  match field.binding with
  | none => .error (.detached field.name .unattached)
  | some binding => (field.checkOwner binding store).map fun _ =>
      match field.expression with
      | some ⟨source, none⟩ =>
          let (stage, store) := store.compile binding.path source true
          ⟨field.modifyAttributes fun attributes =>
              { attributes with expression := some ⟨source, some stage⟩ },
            store, [⟨.expressionCompiled, [("path", binding.path)]⟩]⟩
      | _ => ⟨field, store, []⟩

/-- Asks for the source of the expression, which is compiled first if the field is attached. -/
def getExpression (field : Field) (store : Store) : Except Error (Option Json × Compilation) :=
  if field.isAttached && field.isVirtual then
    (field.compile store).map fun compilation => (compilation.field.source, compilation)
  else .ok (field.source, ⟨field, store, []⟩)

/-- Asks for the compiled stage of the expression; a regular field has none. -/
def compiledStage (field : Field) (store : Store) : Except Error (Option Json × Compilation) :=
  if field.isVirtual then
    (field.compile store).map fun compilation => (compilation.field.stage, compilation)
  else .ok (none, ⟨field, store, []⟩)

/-- Saves the record of an attached field in the store of its dataset; nothing is done for a
detached one. -/
def persist (field : Field) (store : Store) : Except Error (Store × List Event) :=
  match field.binding with
  | none => .ok (store, [])
  | some binding => (field.checkOwner binding store).map fun _ =>
      (store.save field, [⟨.fieldSaved, [("path", binding.path)]⟩])

end Field

end SchemaTree
