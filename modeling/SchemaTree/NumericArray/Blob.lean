import SchemaTree.NumericArray
import SchemaTree.Zlib.Stream

/-!
The stored form of arrays: a compressed stream whose content is the magic `DSAR`, a version, an
element type, the number of dimensions, their sizes, and the elements, all numbers little-endian.
-/

namespace SchemaTree.NumericArray

def magic : List UInt8 := [0x44, 0x53, 0x41, 0x52]

def formatVersion : UInt8 := 1

/-- The lowest bytes of a number, the lowest first. -/
def littleEndian : Nat → Nat → List UInt8
  | 0, _ =>
      []
  | width + 1, value =>
      UInt8.ofNat value :: littleEndian width (value / 256)

def ofLittleEndian : List UInt8 → Nat
  | [] =>
      0
  | byte :: bytes =>
      byte.toNat + 256 * ofLittleEndian bytes

def payload : ArrayData → List UInt8
  | .bool values => values.map fun value => if value then 1 else 0
  | .int values => values.flatMap fun value => littleEndian 8 value.toUInt64.toNat
  | .float values => values.flatMap fun value => littleEndian 8 value.bits.toNat

def content (array : NumericArray) : List UInt8 :=
  magic ++ [formatVersion, UInt8.ofNat array.data.elementType.tag]
    ++ littleEndian 4 array.shape.length
    ++ array.shape.flatMap (fun size => littleEndian 8 size.toNat)
    ++ payload array.data

def toBlob (array : NumericArray) : List UInt8 :=
  Zlib.compress array.content

def takeBytes (count : Nat) (bytes : List UInt8) :
    Except CodecFault (List UInt8 × List UInt8) :=
  if bytes.length < count then .error .blobTruncated
  else .ok (bytes.take count, bytes.drop count)

/-- Numbers of eight bytes each; a rest of fewer bytes is dropped. -/
def words : List UInt8 → List UInt64
  | a :: b :: c :: d :: e :: f :: g :: h :: rest =>
      UInt64.ofNat (ofLittleEndian [a, b, c, d, e, f, g, h]) :: words rest
  | _ => []

def ofPayload (type : ElementType) (bytes : List UInt8) : ArrayData :=
  match type with
  | .bool => .bool (bytes.map fun byte => byte ≠ 0)
  | .int64 => .int ((words bytes).map UInt64.toInt64)
  | .float64 => .float ((words bytes).map Binary64.mk)

/-- The shape and elements of a blob's uncompressed content. -/
def parseContent (bytes : List UInt8) : Except CodecFault (List UInt64 × ArrayData) := do
  let (opening, bytes) ← takeBytes 4 bytes
  if opening ≠ magic then throw .blobMagic
  let (version, bytes) ← takeBytes 1 bytes
  if version ≠ [formatVersion] then throw (.blobVersion (ofLittleEndian version))
  let (tag, bytes) ← takeBytes 1 bytes
  match ElementType.ofTag? (ofLittleEndian tag) with
  | none => throw (.blobElementType (ofLittleEndian tag))
  | some type =>
      let (dimensions, bytes) ← takeBytes 4 bytes
      let (sizes, bytes) ← takeBytes (ofLittleEndian dimensions * 8) bytes
      let shape := words sizes
      match elementCount shape with
      | none => throw (.blobShape shape)
      | some count =>
          let (elements, rest) ← takeBytes (count * type.size) bytes
          if rest ≠ [] then throw .blobTrailing
          return (shape, ofPayload type elements)

def ofContent (bytes : List UInt8) : Except Error NumericArray :=
  match parseContent bytes with
  | .error fault => .error (.codec fault)
  | .ok (shape, data) => ofShape shape data

def ofBlob (blob : List UInt8) : Except Error NumericArray :=
  match Zlib.decompress? blob with
  | none => .error (.codec .compression)
  | some bytes => ofContent bytes

end SchemaTree.NumericArray
