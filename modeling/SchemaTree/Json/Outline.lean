import SchemaTree.Json.Token

/-!
Outlines of JSON texts.  An outline has the structure of a text and its strings, but no numbers;
members stand in the order of the text and may be repeated.
-/

namespace SchemaTree.Json

/-- The structure of a JSON text. -/
inductive Outline where
  | null
  | bool (value : Bool)
  | number
  | string (value : Option String)
  | array (items : List Outline)
  | object (members : List (Option String × Outline))

namespace Outline

/-- An array or an object that is still open, with what it has so far, the latest first. -/
inductive Frame where
  | array (items : List Outline)
  | object (members : List (Option String × Outline)) (key : Option String)

/-- What has been read, and what has to follow.  The frames are those around it, the innermost
first. -/
inductive State where
  /-- A value has to follow. -/
  | value (frames : List Frame)
  /-- An array has been opened. -/
  | opened (frames : List Frame)
  /-- An object has been opened. -/
  | openedObject (frames : List Frame)
  /-- A key has to follow. -/
  | key (members : List (Option String × Outline)) (frames : List Frame)
  /-- The colon after a key has to follow. -/
  | colon (members : List (Option String × Outline)) (key : Option String) (frames : List Frame)
  /-- A value has been read. -/
  | closed (value : Outline) (frames : List Frame)

def start (frames : List Frame) : Token → Option State
  | .openArray => some (.opened frames)
  | .openObject => some (.openedObject frames)
  | .null => some (.closed .null frames)
  | .bool value => some (.closed (.bool value) frames)
  | .number => some (.closed .number frames)
  | .string value => some (.closed (.string value) frames)
  | _ => none

def step : State → Token → Option State
  | .value frames, token => start frames token
  | .opened frames, .closeArray => some (.closed (.array []) frames)
  | .opened frames, token => start (.array [] :: frames) token
  | .openedObject frames, .closeObject => some (.closed (.object []) frames)
  | .openedObject frames, .string key => some (.colon [] key frames)
  | .key members frames, .string key => some (.colon members key frames)
  | .colon members key frames, .colon => some (.value (.object members key :: frames))
  | .closed value (.array items :: frames), .comma =>
      some (.value (.array (value :: items) :: frames))
  | .closed value (.array items :: frames), .closeArray =>
      some (.closed (.array (value :: items).reverse) frames)
  | .closed value (.object members key :: frames), .comma =>
      some (.key ((key, value) :: members) frames)
  | .closed value (.object members key :: frames), .closeObject =>
      some (.closed (.object ((key, value) :: members).reverse) frames)
  | _, _ => none

def run : State → List Token → Option State
  | state, [] => some state
  | state, token :: rest => (step state token).bind fun next => run next rest

/-- The outline of a text that holds exactly one value. -/
def ofText? (text : String) : Option Outline :=
  match (Token.scan text).bind (run (.value [])) with
  | some (.closed value []) => some value
  | _ => none

end Outline

end SchemaTree.Json
