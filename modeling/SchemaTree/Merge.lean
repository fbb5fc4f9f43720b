import SchemaTree.Schema
import SchemaTree.Text.Digits

/-!
Merging.  A merge computes the fields of an incoming schema that an existing one lacks, as detached
copies under their dotted paths, and installs nothing.  Fields that both sides have can be checked
for compatibility, and embedded documents on both sides can be merged in turn.
-/

namespace SchemaTree

/-- Fails unless the type of an incoming field, and its document type, fit the existing one. -/
def checkTypes (path : String) (incoming existing : Field) : Except Error Unit :=
  let mismatch : Except Error Unit :=
    .error (.typeMismatch path existing.display incoming.display)
  if incoming.type.isSubtypeOf existing.type then
    match incoming.embedded?, existing.embedded? with
    | some inner, some outer =>
        if inner.documentType.isSubclassOf outer.documentType then .ok () else mismatch
    | _, _ => .ok ()
  else mismatch

/-- Fails unless an incoming field can stand in for an existing one: its type and document type
must fit, and so must its element, where both have one. -/
def checkFit (path : String) : Field → Field → Except Error Unit
  | ⟨attributes, .list flavor (some element)⟩, existing =>
      (checkTypes path ⟨attributes, .list flavor (some element)⟩ existing).bind fun _ =>
        match existing.element with
        | some other => checkFit path element other
        | none => .ok ()
  | ⟨attributes, .dict flavor (some element)⟩, existing =>
      (checkTypes path ⟨attributes, .dict flavor (some element)⟩ existing).bind fun _ =>
        match existing.element with
        | some other => checkFit path element other
        | none => .ok ()
  | incoming, existing =>
      checkTypes path incoming existing

/-- The outcome of merging a field without a document into an embedded document. -/
def refuse (validate : Bool) (path : String) (existing : Embedded) (incoming : Field) :
    Except Error (List (String × Field)) :=
  if validate then .error (.typeMismatch path existing.display incoming.display) else .ok []

def Field.isList (field : Field) : Bool :=
  field.type.isSubtypeOf .list

/-- The embedded document of an existing field into which an incoming one is merged: the one in
its elements if the existing field is a list, and then only for lists. -/
def mergeTarget? (existing incoming : Field) : Option Embedded :=
  if existing.isList then
    if incoming.isList then existing.element.bind Field.embedded? else none
  else existing.embedded?

mutual

/-- What an incoming field adds below an existing one at a path. -/
def Field.additions (validate : Bool) (path : String) (existing : Field) :
    Field → Except Error (List (String × Field))
  | ⟨attributes, .embedded nested⟩ =>
      match mergeTarget? existing ⟨attributes, .embedded nested⟩ with
      | none => .ok []
      | some target => Embedded.additions validate path target nested
  | ⟨attributes, .list flavor (some ⟨inner, .embedded nested⟩)⟩ =>
      match mergeTarget? existing
        ⟨attributes, .list flavor (some ⟨inner, .embedded nested⟩)⟩ with
      | none => .ok []
      | some target =>
          if existing.isList then Embedded.additions validate path target nested
          else refuse validate path target
            ⟨attributes, .list flavor (some ⟨inner, .embedded nested⟩)⟩
  | incoming =>
      match mergeTarget? existing incoming with
      | none => .ok []
      | some target =>
          if existing.isList then
            match incoming.element with
            | some element => refuse validate path target element
            | none => .ok []
          else refuse validate path target incoming
  termination_by structural incoming => incoming

/-- What an incoming embedded document adds to an existing one at a path. -/
def Embedded.additions (validate : Bool) (path : String) (existing : Embedded) :
    Embedded → Except Error (List (String × Field))
  | ⟨documentType, declared, displaced, fields, view⟩ =>
      if validate && !documentType.isSubclassOf existing.documentType then
        .error (.typeMismatch path existing.display
          (Embedded.display ⟨documentType, declared, displaced, fields, view⟩))
      else entryAdditions validate true (some path) existing.fields fields
  termination_by structural incoming => incoming

/-- What incoming fields add to existing ones below an optional path. -/
def entryAdditions (validate recursive : Bool) (path : Option String)
    (existing : List (String × Field)) :
    List (String × Field) → Except Error (List (String × Field))
  | [] => .ok []
  | (name, incoming) :: rest =>
      let here := Path.join path name
      let first : Except Error (List (String × Field)) :=
        match Mapping.lookup existing name with
        | none => .ok [(here, incoming.copy)]
        | some field =>
            (if validate then checkFit here incoming field else .ok ()).bind fun _ =>
              if recursive then Field.additions validate here field incoming else .ok []
      first.bind fun added =>
        (entryAdditions validate recursive path existing rest).map fun others => added ++ others
  termination_by structural incoming => incoming

end

def mergeEvent (path : String) (added : Schema) : Event :=
  ⟨.schemaMerged, [("new_fields", Text.showNat added.length), ("path", path)]⟩

/-- The fields that an incoming schema adds to an existing one. -/
def Schema.merge (existing incoming : Schema) (validate recursive : Bool) :
    Except Error (Schema × Event) :=
  (entryAdditions validate recursive none existing incoming).map fun added =>
    let added := Mapping.ofList added
    (added, mergeEvent "" added)

/-- The fields that an incoming field adds to an embedded document at a path.  With `recursive`
its nested documents are merged in turn. -/
def Embedded.merge (existing : Embedded) (path : String) (incoming : Field)
    (validate recursive : Bool) : Except Error (Schema × Event) :=
  let added := match incoming.embedded? with
    | none => refuse validate path existing incoming
    | some nested =>
        if validate && !nested.documentType.isSubclassOf existing.documentType then
          .error (.typeMismatch path existing.display incoming.display)
        else entryAdditions validate recursive (some path) existing.fields nested.fields
  added.map fun added =>
    let added := Mapping.ofList added
    (added, mergeEvent path added)

end SchemaTree
