import SchemaTree.Text.Hex

/-!
Structured log lines.  One line is one event, written as a JSON object whose members are the
event, its severity, and then its fields sorted by key.
-/

namespace SchemaTree

/-- How grave a logged event is, least first. -/
inductive Severity where
  | trace
  | info
  | warn
  | error
  | fatal
  deriving DecidableEq, Repr

namespace Severity

def all : List Severity := [trace, info, warn, error, fatal]

def name : Severity → String
  | trace => "TRACE"
  | info => "INFO"
  | warn => "WARN"
  | error => "ERROR"
  | fatal => "FATAL"

def rank : Severity → Nat
  | trace => 0
  | info => 1
  | warn => 2
  | error => 3
  | fatal => 4

def ofName? (text : String) : Option Severity :=
  all.find? fun severity => severity.name = text

end Severity

/-- The changes of a schema that are logged. -/
inductive EventKind where
  /-- A field was installed. -/
  | fieldDeclared
  /-- A field moved to a new name. -/
  | fieldRenamed
  /-- A field was removed from an embedded document. -/
  | fieldRemoved
  /-- A field's record was handed to its store. -/
  | fieldSaved
  /-- An incoming schema was reconciled. -/
  | schemaMerged
  /-- A virtual expression was compiled. -/
  | expressionCompiled
  /-- A view was installed. -/
  | viewApplied
  /-- A view was released. -/
  | viewCleared
  deriving DecidableEq, Repr

namespace EventKind

def all : List EventKind :=
  [fieldDeclared, fieldRenamed, fieldRemoved, fieldSaved, schemaMerged, expressionCompiled,
    viewApplied, viewCleared]

def name : EventKind → String
  | fieldDeclared => "FIELD_DECLARED"
  | fieldRenamed => "FIELD_RENAMED"
  | fieldRemoved => "FIELD_REMOVED"
  | fieldSaved => "FIELD_SAVED"
  | schemaMerged => "SCHEMA_MERGED"
  | expressionCompiled => "EXPRESSION_COMPILED"
  | viewApplied => "VIEW_APPLIED"
  | viewCleared => "VIEW_CLEARED"

end EventKind

/-- What an operation reports: a kind of event and its fields. -/
structure Event where
  kind : EventKind
  fields : List (String × String)
  deriving DecidableEq, Repr

namespace Log

/-- Whether a character is a control character: U+0000 to U+001F and U+007F to U+009F. -/
def isControl (char : Char) : Bool :=
  char.toNat < 32 || (127 ≤ char.toNat && char.toNat < 160)

/-- How a character is written inside a JSON string. -/
def escapeChar (char : Char) : List Char :=
  if char = '"' then ['\\', '"']
  else if char = '\\' then ['\\', '\\']
  else if char = '\n' then ['\\', 'n']
  else if char = '\r' then ['\\', 'r']
  else if char = '\t' then ['\\', 't']
  else if isControl char then
    ['\\', 'u', '0', '0', Text.Hex.digit (char.toNat / 16), Text.Hex.digit (char.toNat % 16)]
  else [char]

/-- A text between quotes, with what JSON does not allow there escaped. -/
def quoted (text : String) : List Char :=
  '"' :: text.toList.flatMap escapeChar ++ ['"']

/-- One member of the object: a comma, the key and the value. -/
def member (entry : String × String) : List Char :=
  ',' :: quoted entry.1 ++ ':' :: quoted entry.2

/-- Fields in the order of their keys; fields of one key keep their order. -/
def sortFields (fields : List (String × String)) : List (String × String) :=
  fields.mergeSort fun left right => left.1 ≤ right.1

def line (severity : Severity) (event : String) (fields : List (String × String)) : String :=
  String.ofList <|
    '\x7b' :: quoted "event" ++ ':' :: quoted event
      ++ member ("severity", severity.name)
      ++ (sortFields fields).flatMap member ++ ['\x7d', '\n']

/-- Whether events of a severity pass the least severity that is logged. -/
def enabled (least severity : Severity) : Bool :=
  least.rank ≤ severity.rank

/-- What is written on the two channels: errors on the second, the rest on the first. -/
structure Output where
  standard : String
  error : String
  deriving DecidableEq, Repr

/-- The output of logging one event under a least severity. -/
def write (least severity : Severity) (event : String) (fields : List (String × String)) :
    Output :=
  if enabled least severity then
    if Severity.error.rank ≤ severity.rank then ⟨"", line severity event fields⟩
    else ⟨line severity event fields, ""⟩
  else ⟨"", ""⟩

/-- The output of an event of the library, all of which are informational. -/
def writeEvent (least : Severity) (event : Event) : Output :=
  write least .info event.kind.name event.fields

end Log

end SchemaTree
