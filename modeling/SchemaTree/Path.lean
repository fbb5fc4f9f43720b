import SchemaTree.Error

/-!
Field names and dotted paths.  A name is not empty, has no dot and does not start with a dollar
sign; a path is names with dots between them.  Names that start with an underscore are private.
-/

namespace SchemaTree

def isFieldName (name : String) : Bool :=
  match name.toList with
  | [] => false
  | first :: rest => first ≠ '$' && first ≠ '.' && rest.all (· ≠ '.')

def checkFieldName (name : String) : Except Error Unit :=
  if isFieldName name then .ok () else .error (.invalid none (.fieldName name))

def isPrivate (name : String) : Bool :=
  name.toList.head? = some '_'

namespace Path

/-- The path of a name inside the field at a path. -/
def child (path name : String) : String :=
  path ++ "." ++ name

/-- The path of a name inside the field at a path, or at the top level without one. -/
def join : Option String → String → String
  | none, name => name
  | some path, name => child path name

/-- The path of a name below a path, where the empty path stands for the top level. -/
def below (path name : String) : String :=
  if path = "" then name else child path name

def item (path : String) (index : Nat) : String :=
  path ++ "[" ++ toString index ++ "]"

/-- The parts of a row of characters between dots; there is one more of them than dots. -/
def splitDots : List Char → List (List Char)
  | [] =>
      [[]]
  | char :: rest =>
      if char = '.' then [] :: splitDots rest
      else match splitDots rest with
        | [] => [[char]]
        | part :: parts => (char :: part) :: parts

def segments (path : String) : List String :=
  (splitDots path.toList).map String.ofList

def leaf (path : String) : String :=
  ((segments path).getLast?).getD path

end Path

end SchemaTree
