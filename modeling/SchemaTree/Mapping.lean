/-!
Ordered mappings from names to values, as association lists.  A name keeps its position when its
value is replaced; a new name goes to the end; removal closes the gap.
-/

namespace SchemaTree.Mapping

variable {α β : Type}

def keys (entries : List (String × α)) : List String :=
  entries.map Prod.fst

def contains (entries : List (String × α)) (name : String) : Bool :=
  (keys entries).contains name

def lookup : List (String × α) → String → Option α
  | [], _ =>
      none
  | (key, value) :: rest, name =>
      if key = name then some value else lookup rest name

/-- Replaces the value of a name in place, or appends the name. -/
def insert : List (String × α) → String → α → List (String × α)
  | [], name, value =>
      [(name, value)]
  | (key, old) :: rest, name, value =>
      if key = name then (key, value) :: rest else (key, old) :: insert rest name value

def erase : List (String × α) → String → List (String × α)
  | [], _ =>
      []
  | (key, value) :: rest, name =>
      if key = name then erase rest name else (key, value) :: erase rest name

/-- Inserts all entries of a second mapping, in order. -/
def extend (entries added : List (String × α)) : List (String × α) :=
  added.foldl (fun result entry => insert result entry.1 entry.2) entries

/-- The mapping that inserts entries in order; of two with one name, the later value stays. -/
def ofList (entries : List (String × α)) : List (String × α) :=
  extend [] entries

def mapValues (f : String → α → β) (entries : List (String × α)) : List (String × β) :=
  entries.map fun entry => (entry.1, f entry.1 entry.2)

def adjust : List (String × α) → String → (α → α) → List (String × α)
  | [], _, _ =>
      []
  | (key, value) :: rest, name, f =>
      if key = name then (key, f value) :: rest else (key, value) :: adjust rest name f

/-- Equality that ignores order: the same number of names, each with equal values. -/
def agree (equal : α → α → Bool) (left right : List (String × α)) : Bool :=
  left.length = right.length &&
    left.all fun entry => match lookup right entry.1 with
      | some value => equal entry.2 value
      | none => false

theorem lookup_insert (entries : List (String × α)) (name other : String) (value : α) :
    lookup (insert entries name value) other =
      if name = other then some value else lookup entries other := by
  induction entries with
  | nil => simp [insert, lookup]
  | cons entry rest inductionHypothesis => grind [insert, lookup]

theorem lookup_erase (entries : List (String × α)) (name other : String) :
    lookup (erase entries name) other = if name = other then none else lookup entries other := by
  induction entries with
  | nil => simp [erase, lookup]
  | cons entry rest inductionHypothesis => grind [erase, lookup]

end SchemaTree.Mapping
