import SchemaTree.Error
import SchemaTree.Traverse
import SchemaTree.Value

/-!
Coordinates of geometries.  A point is a pair of numbers, a line at least two points, and a polygon
at least one ring, which is a line of at least four points that ends where it starts.  Multiple
geometries are lists of single ones.
-/

namespace SchemaTree.Geometry

def checkPoint (value : Value) : Except Violation Unit :=
  match value.items? with
  | none => .error (.notPoint value.typeName)
  | some coordinates =>
      if coordinates.length ≠ 2 then .error (.pointSize coordinates.length)
      else if coordinates.all Value.isNumber then .ok ()
      else .error .pointNotNumeric

def checkLine (value : Value) : Except Violation Unit :=
  match value.items? with
  | none => .error (.notLineString value.typeName)
  | some points => if points.length < 2 then .error .lineTooShort else checkEach checkPoint points

/-- Whether a row of points ends where it starts. -/
def isClosed (points : List Value) : Bool :=
  match points.head?, points.getLast? with
  | some first, some last => first.equal last
  | _, _ => true

/-- Checks a closed line of at least four points. -/
def checkRing (value : Value) : Except Violation Unit :=
  (checkLine value).bind fun _ =>
    let points := value.items?.getD []
    if points.length < 4 then .error .ringTooShort
    else if isClosed points then .ok ()
    else .error .ringOpen

def checkPolygon (value : Value) : Except Violation Unit :=
  match value.items? with
  | none => .error (.notPolygon value.typeName)
  | some [] => .error .noRings
  | some rings => checkEach checkRing rings

def checkCollection (geometry : GeoKind) (check : Value → Except Violation Unit)
    (value : Value) : Except Violation Unit :=
  match value.items? with
  | none => .error (.notCollection geometry.geojsonType value.typeName)
  | some items => checkEach check items

/-- Checks the coordinates of a geometry.  A dict, which is the stored form, is refused. -/
def check (geometry : GeoKind) (value : Value) : Except Violation Unit :=
  if value.isDict then .error .geoDict
  else match geometry with
    | .point => checkPoint value
    | .lineString => checkLine value
    | .polygon => checkPolygon value
    | .multiPoint => checkCollection geometry checkPoint value
    | .multiLineString => checkCollection geometry checkLine value
    | .multiPolygon => checkCollection geometry checkPolygon value

end SchemaTree.Geometry
