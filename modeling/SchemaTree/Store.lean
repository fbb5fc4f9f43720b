import SchemaTree.Record

/-!
The store of one dataset.  It keeps the records of saved fields by path, and compiles expressions
into pipeline stages, which it counts.
-/

namespace SchemaTree

/-- The store of a dataset. -/
structure Store where
  dataset : Uuid
  /-- The last record saved for each path. -/
  saved : List (String × Record)
  /-- How many expressions were compiled so far. -/
  compilations : Nat

namespace Store

/-- The store of a dataset for which nothing was done yet. -/
def empty (dataset : Uuid) : Store :=
  ⟨dataset, [], 0⟩

/-- The pipeline stage that sets a target to an expression. -/
def setStage (target : String) (source : Json) : Json :=
  .object [("$set", .object [(target, source)])]

/-- Compiles an expression for a path.  The stage of a root document has the whole path as its
target, that of an embedded document only the last name. -/
def compile (store : Store) (path : String) (source : Json) (atRoot : Bool) : Json × Store :=
  (setStage (if atRoot then path else Path.leaf path) source,
    { store with compilations := store.compilations + 1 })

def save (store : Store) (field : Field) : Store :=
  { store with saved := Mapping.insert store.saved field.location field.toRecord }

def get? (store : Store) (path : String) : Option Record :=
  Mapping.lookup store.saved path

end Store

end SchemaTree
