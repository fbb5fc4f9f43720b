import SchemaTree.Embedded

/-!
Named constructors of fields.  The element of a container takes the container's name.
-/

namespace SchemaTree.Field

def objectId (name : String) : Field := ofKind name .objectId

def uuid (name : String) : Field := ofKind name .uuid

def boolean (name : String) : Field := ofKind name .boolean

def int (name : String) : Field := ofKind name .int

def frameNumber (name : String) : Field := ofKind name .frameNumber

def float (name : String) : Field := ofKind name (.float none none)

def boundedFloat (name : String) (least greatest : Option Binary64) : Field :=
  ofKind name (.float least greatest)

def string (name : String) : Field := ofKind name .string

def date (name : String) : Field := ofKind name .date

def dateTime (name : String) : Field := ofKind name .dateTime

/-- A list of a flavor, whose element takes the list's name. -/
def listOf (name : String) (flavor : ListFlavor) (element : Option Field) : Field :=
  ofKind name (.list flavor (element.map (renamed name)))

/-- A dict of a flavor, whose element takes the dict's name. -/
def dictOf (name : String) (flavor : DictFlavor) (element : Option Field) : Field :=
  ofKind name (.dict flavor (element.map (renamed name)))

def list (name : String) (element : Option Field) : Field :=
  listOf name .plain element

def heatmapRange (name : String) : Field :=
  listOf name .heatmapRange (some (float name))

def keypoints (name : String) : Field :=
  listOf name .keypoints none

def polylinePoints (name : String) : Field :=
  listOf name .polylinePoints none

def frameSupport (name : String) : Field :=
  listOf name .frameSupport (some (int name))

def classes (name : String) : Field :=
  listOf name .classes (some (string name))

def dict (name : String) (element : Option Field) : Field :=
  dictOf name .plain element

def intDict (name : String) (element : Option Field) : Field :=
  dictOf name .intKeys element

def targets (name : String) : Field :=
  dictOf name .targets (some (string name))

def geo (name : String) (geometry : GeoKind) : Field :=
  ofKind name (.geo geometry)

def vector (name : String) : Field := ofKind name .vector

def array (name : String) : Field := ofKind name .array

/-- Documents of a type, with its defaults alone. -/
def embedded (name : String) (documentType : DocumentType) : Field :=
  ofKind name (.embedded (.ofType documentType))

/-- Documents of a type, with declared fields, leaving some defaults out. -/
def embeddedWith (name : String) (documentType : DocumentType) (fields : List Field)
    (displaced : List String) : Field :=
  ofKind name (.embedded (.build documentType fields displaced))

def embeddedList (name : String) (documentType : DocumentType) : Field :=
  listOf name .embeddedDocuments (some (embedded name documentType))

end SchemaTree.Field
