import SchemaTree.Constraints

/-!
Queries: constraints, and how a schema is to be shown.
-/

namespace SchemaTree

/-- When constraints apply to a schema that is flattened. -/
inductive FlattenMode where
  /-- They prune top-level fields, with all below them, before flattening. -/
  | before
  /-- They pick among the flat paths. -/
  | after
  | both
  deriving DecidableEq, Repr

namespace FlattenMode

def name : FlattenMode → String
  | before => "before"
  | after => "after"
  | both => "both"

def filtersBefore : FlattenMode → Bool
  | before | both => true
  | after => false

def filtersAfter : FlattenMode → Bool
  | after | both => true
  | before => false

def parse (text : String) : Except Error FlattenMode :=
  if text = "before" then .ok before
  else if text = "after" then .ok after
  else if text = "both" then .ok both
  else .error (.constraint (.unknownMode text))

end FlattenMode

/-- What a caller wants to see of a schema. -/
structure Query where
  constraints : Constraints
  /-- Whether private names are shown. -/
  includePrivate : Bool
  /-- Whether dotted paths are shown for all that is nested. -/
  flat : Bool
  /-- Without a mode, constraints apply after flattening. -/
  mode : Option FlattenMode

namespace Query

def constraintsBefore (query : Query) : Constraints :=
  if !query.flat || (query.mode.getD .after).filtersBefore then query.constraints else .none

def constraintsAfter (query : Query) : Constraints :=
  if query.flat && (query.mode.getD .after).filtersAfter then query.constraints else .none

end Query

end SchemaTree
