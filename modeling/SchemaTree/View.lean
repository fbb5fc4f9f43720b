import SchemaTree.Field

/-!
Views of an embedded document: a selection and an exclusion of names, and fields that exist for
the view alone.
-/

namespace SchemaTree.View

def all : View := ⟨none, none, []⟩

/-- Shows only some names, less those that were excluded before. -/
def select (view : View) (names : List String) : View :=
  match view.excluded with
  | some excluded =>
      { view with
        selected := some (names.filter fun name => !excluded.contains name)
        excluded := none }
  | none => { view with selected := some names }

/-- Hides names: takes them from the selection if there is one, and otherwise replaces the
exclusion. -/
def exclude (view : View) (names : List String) : View :=
  match view.selected with
  | some selected =>
      { view with selected := some (selected.filter fun name => !names.contains name) }
  | none => { view with excluded := some names }

def withField (view : View) (field : Field) : View :=
  { view with virtualFields := Mapping.insert view.virtualFields field.name field }

def admits (view : View) (name : String) : Bool :=
  (match view.selected with
    | some selected => selected.contains name
    | none => true)
    && match view.excluded with
      | some excluded => !excluded.contains name
      | none => true

/-- Names in the order of code points, each once. -/
def sortedNames (names : List String) : List String :=
  (names.eraseDups).mergeSort (· ≤ ·)

end SchemaTree.View
