import SchemaTree.NumericArray.Blob
import SchemaTree.Proofs.Traverse
import SchemaTree.Proofs.Zlib

/-!
Arrays and their blobs.  A blob is read exactly if its content has a layout: a header whose sizes
multiply within 64 bits at every step, and as many bytes as the elements of that shape take.  What
is read then stands in the content as it is, but for truth, which may be any byte but zero.  Since
a header counts dimensions in four bytes, arrays with fewer than `2 ^ 32` of them come back from
their blobs, and others need not.
-/

namespace SchemaTree

namespace NumericArray

/-! ## Numbers in bytes -/

theorem length_littleEndian (width value : Nat) : (littleEndian width value).length = width := by
  induction width generalizing value with
  | zero => rfl
  | succ width inductionHypothesis => rw [littleEndian, List.length_cons, inductionHypothesis]

theorem twoTo_width_succ (width : Nat) : twoTo (8 * (width + 1)) = 256 * twoTo (8 * width) := by
  rw [Nat.mul_succ, Nat.add_comm, twoTo_add]
  rfl

theorem ofLittleEndian_littleEndian {width value : Nat} (small : value < twoTo (8 * width)) :
    ofLittleEndian (littleEndian width value) = value := by
  induction width generalizing value with
  | zero =>
      have none_left : value < 1 := small
      rw [littleEndian, ofLittleEndian]
      omega
  | succ width inductionHypothesis =>
      rw [twoTo_width_succ] at small
      have following := @inductionHypothesis (value / 256) (by omega)
      rw [littleEndian, ofLittleEndian, following, UInt8.toNat_ofNat']
      show value % 256 + 256 * (value / 256) = value
      omega

theorem ofLittleEndian_lt (bytes : List UInt8) :
    ofLittleEndian bytes < twoTo (8 * bytes.length) := by
  induction bytes with
  | nil => exact Nat.one_pos
  | cons byte bytes inductionHypothesis =>
      have small := byte.toNat_lt
      rw [ofLittleEndian, List.length_cons, twoTo_width_succ]
      omega

theorem littleEndian_ofLittleEndian (bytes : List UInt8) :
    littleEndian bytes.length (ofLittleEndian bytes) = bytes := by
  induction bytes with
  | nil => rfl
  | cons byte bytes inductionHypothesis =>
      have small := byte.toNat_lt
      have lowest : UInt8.ofNat (byte.toNat + 256 * ofLittleEndian bytes) = byte := by
        apply UInt8.toNat_inj.mp
        rw [UInt8.toNat_ofNat']
        omega
      have following : (byte.toNat + 256 * ofLittleEndian bytes) / 256 = ofLittleEndian bytes := by
        omega
      rw [List.length_cons, ofLittleEndian, littleEndian, lowest, following, inductionHypothesis]

theorem words_append (value : UInt64) (bytes : List UInt8) :
    words (littleEndian 8 value.toNat ++ bytes) = value :: words bytes := by
  have read := @ofLittleEndian_littleEndian 8 value.toNat value.toNat_lt
  simp only [littleEndian] at read
  simp only [littleEndian, List.cons_append, List.nil_append, words, read, UInt64.ofNat_toNat]

theorem words_flatMap {α : Type} (word : α → UInt64) (values : List α) :
    words (values.flatMap fun value => littleEndian 8 (word value).toNat) = values.map word := by
  induction values with
  | nil => rfl
  | cons value values inductionHypothesis =>
      rw [List.flatMap_cons, words_append, inductionHypothesis, List.map_cons]

theorem length_flatMap_littleEndian {α : Type} (word : α → Nat) (values : List α) :
    (values.flatMap fun value => littleEndian 8 (word value)).length = values.length * 8 := by
  induction values with
  | nil => rfl
  | cons value values inductionHypothesis =>
      rw [List.flatMap_cons, List.length_append, length_littleEndian, inductionHypothesis,
        List.length_cons]
      omega

/-- Bytes that are enough for a count of words are those of the words that are read from them. -/
theorem length_words_and_flatMap_words {count : Nat} {bytes : List UInt8}
    (enough : bytes.length = count * 8) :
    (words bytes).length = count ∧
      (words bytes).flatMap (fun value => littleEndian 8 value.toNat) = bytes := by
  induction count generalizing bytes with
  | zero =>
      obtain rfl := List.eq_nil_of_length_eq_zero (enough.trans (Nat.zero_mul 8))
      exact ⟨rfl, rfl⟩
  | succ count inductionHypothesis =>
      have first : (bytes.take 8).length = 8 := by
        rw [List.length_take]
        omega
      have rest : (bytes.drop 8).length = count * 8 := by
        rw [List.length_drop]
        omega
      have small := ofLittleEndian_lt (bytes.take 8)
      have firstBytes := littleEndian_ofLittleEndian (bytes.take 8)
      rw [first] at small firstBytes
      have isWord : (UInt64.ofNat (ofLittleEndian (bytes.take 8))).toNat =
          ofLittleEndian (bytes.take 8) := UInt64.toNat_ofNat_of_lt small
      have split := words_append (UInt64.ofNat (ofLittleEndian (bytes.take 8))) (bytes.drop 8)
      rw [isWord, firstBytes, List.take_append_drop] at split
      obtain ⟨counted, restBytes⟩ := inductionHypothesis rest
      rw [split, List.length_cons, counted, List.flatMap_cons, isWord, firstBytes, restBytes]
      exact ⟨rfl, List.take_append_drop 8 bytes⟩

/-! ## Sizes -/

/-- The product of sizes, in whatever range. -/
def sizeProduct : List UInt64 → Nat
  | [] =>
      1
  | size :: sizes =>
      size.toNat * sizeProduct sizes

theorem elementCountFrom_eq_some_iff {count total : Nat} {shape : List UInt64}
    (small : count < UInt64.size) :
    elementCountFrom count shape = some total ↔
      (∀ sizes, sizes <+: shape → count * sizeProduct sizes < UInt64.size) ∧
        total = count * sizeProduct shape := by
  induction shape generalizing count with
  | nil => simp [elementCountFrom, sizeProduct, small, eq_comm]
  | cons size rest inductionHypothesis =>
      simp only [elementCountFrom, List.prefix_cons_iff, sizeProduct, ← Nat.mul_assoc]
      by_cases fits : count * size.toNat < UInt64.size
      · rw [if_pos fits, inductionHypothesis fits]
        constructor
        · rintro ⟨bounded, rfl⟩
          refine ⟨?_, rfl⟩
          rintro sizes (rfl | ⟨others, rfl, isPrefix⟩)
          · simpa [sizeProduct] using small
          · simpa [sizeProduct, Nat.mul_assoc] using bounded others isPrefix
        · rintro ⟨bounded, rfl⟩
          refine ⟨?_, rfl⟩
          intro others isPrefix
          simpa [sizeProduct, Nat.mul_assoc] using bounded _ (.inr ⟨others, rfl, isPrefix⟩)
      · rw [if_neg fits]
        constructor
        · intro found
          contradiction
        · rintro ⟨bounded, _⟩
          have first := bounded [size] (.inr ⟨[], rfl, List.nil_prefix⟩)
          simp only [sizeProduct, Nat.mul_one] at first
          contradiction

/-- Sizes have a number of elements exactly if no product from the left on is out of range. -/
theorem elementCount_eq_some_iff {total : Nat} {shape : List UInt64} :
    elementCount shape = some total ↔
      (∀ sizes, sizes <+: shape → sizeProduct sizes < UInt64.size) ∧
        total = sizeProduct shape := by
  have counted := @elementCountFrom_eq_some_iff 1 total shape (by decide)
  simp only [Nat.one_mul] at counted
  exact counted

/-- A size of zero saves a product from the range only where it comes first. -/
example : elementCount [0, 0x8000000000000000, 2] = some 0 ∧
    elementCount [0x8000000000000000, 2, 0] = none := by decide

end NumericArray

/-! ## Elements -/

/-- Elements and bytes that they are read from.  Every byte but zero is read as true. -/
inductive ArrayData.ReadFrom : ArrayData → List UInt8 → Prop
  | bool (bytes : List UInt8) : ReadFrom (.bool (bytes.map fun byte => byte ≠ 0)) bytes
  | int (values : List Int64) : ReadFrom (.int values)
      (values.flatMap fun value => NumericArray.littleEndian 8 value.toUInt64.toNat)
  | float (values : List Binary64) : ReadFrom (.float values)
      (values.flatMap fun value => NumericArray.littleEndian 8 value.bits.toNat)

/-- The bytes that elements are written in, which were read from bytes of a type. -/
def ElementType.canonical : ElementType → List UInt8 → List UInt8
  | .bool, bytes => bytes.map fun byte => if byte = 0 then 0 else 1
  | .int64, bytes | .float64, bytes => bytes

namespace ArrayData

open NumericArray

section ReadFrom

variable {data : ArrayData} {bytes : List UInt8}

theorem ReadFrom.ofPayload_eq (isRead : data.ReadFrom bytes) :
    ofPayload data.elementType bytes = data := by
  cases isRead with
  | bool bytes => rfl
  | int values =>
      rw [elementType, ofPayload, words_flatMap, List.map_map]
      exact congrArg ArrayData.int (List.map_id values)
  | float values =>
      rw [elementType, ofPayload, words_flatMap, List.map_map]
      exact congrArg ArrayData.float (List.map_id values)

theorem ReadFrom.length_eq (isRead : data.ReadFrom bytes) :
    bytes.length = data.length * data.elementType.size := by
  cases isRead with
  | bool bytes => simp [length, elementType, ElementType.size]
  | int values => exact length_flatMap_littleEndian _ values
  | float values => exact length_flatMap_littleEndian _ values

theorem ReadFrom.payload_eq (isRead : data.ReadFrom bytes) :
    payload data = data.elementType.canonical bytes := by
  cases isRead with
  | bool bytes => simp [payload, elementType, ElementType.canonical]
  | int values => rfl
  | float values => rfl

end ReadFrom

theorem readFrom_payload (data : ArrayData) : data.ReadFrom (payload data) := by
  cases data with
  | bool values =>
      have again : (payload (.bool values)).map (fun byte => decide (byte ≠ 0)) = values := by
        rw [payload, List.map_map]
        refine (List.map_congr_left ?_).trans (List.map_id values)
        intro value _
        cases value <;> rfl
      have isRead := ReadFrom.bool (payload (.bool values))
      rwa [again] at isRead
  | int values => exact .int values
  | float values => exact .float values

/-- Bytes that are enough for a count of elements are read as that many. -/
theorem exists_readFrom {type : ElementType} {count : Nat} {bytes : List UInt8}
    (enough : bytes.length = count * type.size) :
    ∃ data : ArrayData, data.ReadFrom bytes ∧ data.elementType = type ∧ data.length = count := by
  cases type with
  | bool =>
      refine ⟨_, .bool bytes, rfl, ?_⟩
      simpa [length, ElementType.size] using enough
  | int64 =>
      obtain ⟨counted, isBytes⟩ := length_words_and_flatMap_words enough
      have isRead := ReadFrom.int ((words bytes).map UInt64.toInt64)
      rw [List.flatMap_map] at isRead
      refine ⟨_, isBytes ▸ isRead, rfl, ?_⟩
      rw [length, List.length_map, counted]
  | float64 =>
      obtain ⟨counted, isBytes⟩ := length_words_and_flatMap_words enough
      have isRead := ReadFrom.float ((words bytes).map Binary64.mk)
      rw [List.flatMap_map] at isRead
      refine ⟨_, isBytes ▸ isRead, rfl, ?_⟩
      rw [length, List.length_map, counted]

end ArrayData

namespace NumericArray

/-! ## Contents -/

/-- The bytes in front of the elements. -/
def header (type : ElementType) (shape : List UInt64) : List UInt8 :=
  magic ++ [formatVersion, UInt8.ofNat type.tag] ++ littleEndian 4 shape.length
    ++ shape.flatMap fun size => littleEndian 8 size.toNat

theorem content_eq_append (array : NumericArray) :
    array.content = header array.data.elementType array.shape ++ payload array.data :=
  rfl

/-- Content that consists of a header and the bytes of the elements.  The number of dimensions
has four bytes, and no product of sizes from the left on is out of the range of eight. -/
structure Layout (type : ElementType) (shape : List UInt64) (elements content : List UInt8) :
    Prop where
  few : shape.length < twoTo 32
  bounded : ∀ sizes, sizes <+: shape → sizeProduct sizes < UInt64.size
  enough : elements.length = sizeProduct shape * type.size
  content_eq : content = header type shape ++ elements

theorem takeBytes_append {count : Nat} {first : List UInt8} (exact : first.length = count)
    (rest : List UInt8) : takeBytes count (first ++ rest) = .ok (first, rest) := by
  rw [takeBytes, if_neg, List.take_left' exact, List.drop_left' exact]
  rw [List.length_append]
  omega

theorem bind_takeBytes_eq_ok_iff {α : Type} {count : Nat} {bytes : List UInt8}
    {next : List UInt8 × List UInt8 → Except CodecFault α} {result : α} :
    (takeBytes count bytes).bind next = .ok result ↔
      ∃ first rest, bytes = first ++ rest ∧ first.length = count ∧
        next (first, rest) = .ok result := by
  rw [bind_eq_ok_iff]
  constructor
  · rintro ⟨parts, taken, continued⟩
    unfold takeBytes at taken
    split at taken
    · contradiction
    · cases taken
      refine ⟨_, _, (List.take_append_drop count bytes).symm, ?_, continued⟩
      rw [List.length_take]
      omega
  · rintro ⟨first, rest, rfl, exact, continued⟩
    exact ⟨_, takeBytes_append exact rest, continued⟩

theorem ofLittleEndian_tag (type : ElementType) :
    ofLittleEndian [UInt8.ofNat type.tag] = type.tag := by
  cases type <;> rfl

theorem eq_tag_of_single {bytes : List UInt8} {type : ElementType} (single : bytes.length = 1)
    (found : ElementType.ofTag? (ofLittleEndian bytes) = some type) :
    bytes = [UInt8.ofNat type.tag] := by
  have isBytes := littleEndian_ofLittleEndian bytes
  rw [single, ElementType.eq_tag_of_ofTag? found] at isBytes
  exact isBytes.symm

/-- What is parsed has a layout, step by step. -/
theorem exists_layout {content : List UInt8} {shape : List UInt64} {data : ArrayData}
    (parsed : parseContent content = .ok (shape, data)) :
    ∃ elements, Layout data.elementType shape elements content ∧ data.ReadFrom elements := by
  obtain ⟨opening, rest, rfl, _, parsed⟩ := bind_takeBytes_eq_ok_iff.mp parsed
  obtain ⟨rfl, parsed⟩ := expect_eq_ok_iff.mp parsed
  obtain ⟨version, rest, rfl, _, parsed⟩ := bind_takeBytes_eq_ok_iff.mp parsed
  obtain ⟨rfl, parsed⟩ := expect_eq_ok_iff.mp parsed
  obtain ⟨tag, rest, rfl, single, parsed⟩ := bind_takeBytes_eq_ok_iff.mp parsed
  dsimp only at parsed
  split at parsed
  · contradiction
  rename_i type isTag
  obtain ⟨dimensions, rest, rfl, four, parsed⟩ := bind_takeBytes_eq_ok_iff.mp parsed
  obtain ⟨sizes, rest, rfl, sized, parsed⟩ := bind_takeBytes_eq_ok_iff.mp parsed
  dsimp only at parsed
  split at parsed
  · contradiction
  rename_i count isCount
  obtain ⟨elements, rest, rfl, enough, parsed⟩ := bind_takeBytes_eq_ok_iff.mp parsed
  obtain ⟨rfl, parsed⟩ := expect_eq_ok_iff.mp parsed
  cases parsed
  -- Each part is the form of what was read from it.
  have few := ofLittleEndian_lt dimensions
  have dimensions_eq := littleEndian_ofLittleEndian dimensions
  rw [four] at few dimensions_eq
  obtain ⟨counted, sizes_eq⟩ := length_words_and_flatMap_words sized
  obtain ⟨bounded, rfl⟩ := elementCount_eq_some_iff.mp isCount
  obtain ⟨data, isRead, rfl, _⟩ := ArrayData.exists_readFrom enough
  rw [isRead.ofPayload_eq]
  refine ⟨elements, ⟨counted ▸ few, bounded, enough, ?_⟩, isRead⟩
  rw [eq_tag_of_single single isTag, header, counted, dimensions_eq, sizes_eq]
  simp only [List.append_assoc, List.cons_append, List.nil_append, List.append_nil]

section Layout

variable {type : ElementType} {shape : List UInt64} {data : ArrayData}
variable {elements content : List UInt8}

theorem Layout.elementCount_eq (layout : Layout type shape elements content) :
    elementCount shape = some (sizeProduct shape) :=
  elementCount_eq_some_iff.mpr ⟨layout.bounded, rfl⟩

theorem Layout.parseContent_eq (layout : Layout data.elementType shape elements content)
    (isRead : data.ReadFrom elements) : parseContent content = .ok (shape, data) := by
  have small : shape.length < twoTo (8 * 4) := layout.few
  have dimensions := ofLittleEndian_littleEndian small
  have sizes := length_flatMap_littleEndian UInt64.toNat shape
  have isShape := words_flatMap id shape
  simp only [List.map_id, id_eq] at isShape
  have taken := takeBytes_append layout.enough []
  rw [List.append_nil] at taken
  have opening (bytes : List UInt8) : takeBytes 4 (magic ++ bytes) = .ok (magic, bytes) :=
    takeBytes_append rfl bytes
  have single (byte : UInt8) (bytes : List UInt8) :
      takeBytes 1 (byte :: bytes) = .ok ([byte], bytes) :=
    @takeBytes_append 1 [byte] rfl bytes
  rw [layout.content_eq]
  simp only [header, List.append_assoc, List.cons_append, List.nil_append, parseContent, opening,
    single, ofLittleEndian_tag, ElementType.ofTag?_tag, takeBytes_append (length_littleEndian 4 _),
    dimensions, takeBytes_append sizes, bind, Except.bind, ne_eq, not_true_eq_false, if_false,
    pure, Except.pure, isShape, layout.elementCount_eq, taken, isRead.ofPayload_eq]

/-- The shape of a layout covers the elements, so that no check of it can fail. -/
theorem Layout.covers (layout : Layout data.elementType shape elements content)
    (isRead : data.ReadFrom elements) : elementCount shape = some data.length := by
  have same : data.length * data.elementType.size = sizeProduct shape * data.elementType.size :=
    isRead.length_eq.symm.trans layout.enough
  rw [layout.elementCount_eq, Nat.eq_of_mul_eq_mul_right data.elementType.size_pos same]

end Layout

/-! ## Arrays of a shape -/

theorem cover_self (array : NumericArray) : cover array.shape array.data = .ok array := by
  have covers := array.covers
  unfold cover
  split
  · rename_i overflow
    rw [covers] at overflow
    contradiction
  · rename_i count counted
    rw [covers] at counted
    rw [dif_pos (Option.some.inj counted).symm]

theorem cover_eq_ok {shape : List UInt64} {data : ArrayData}
    (counted : elementCount shape = some data.length) :
    cover shape data = .ok ⟨shape, data, counted⟩ :=
  cover_self ⟨shape, data, counted⟩

theorem ofShape_eq_ok {shape : List UInt64} {data : ArrayData}
    (counted : elementCount shape = some data.length) :
    ofShape shape data = .ok ⟨shape, data, counted⟩ := by
  rw [ofShape, cover_eq_ok counted]
  rfl

theorem parts_of_ofShape {shape : List UInt64} {data : ArrayData} {array : NumericArray}
    (built : ofShape shape data = .ok array) : array.shape = shape ∧ array.data = data := by
  unfold ofShape cover at built
  split at built
  · contradiction
  · split at built
    · cases built
      exact ⟨rfl, rfl⟩
    · contradiction

/-- Fewer than `2 ^ 64` elements can stand in a row. -/
theorem elementCount_rowShape {data : ArrayData} (short : data.length < twoTo 64) :
    elementCount (rowShape data) = some data.length := by
  have small : (UInt64.ofNat data.length).toNat = data.length := UInt64.toNat_ofNat_of_lt short
  have fits : data.length < UInt64.size := short
  rw [elementCount, rowShape, elementCountFrom, small, Nat.one_mul, if_pos fits, elementCountFrom]

theorem cover_rowShape (data : ArrayData) (short : data.length < twoTo 64) :
    ∃ array, cover (rowShape data) data = .ok array ∧ array.shape = rowShape data :=
  ⟨_, cover_eq_ok (elementCount_rowShape short), rfl⟩

/-! ## Blobs -/

/-- Content is read as an array exactly if it has the layout of its shape and elements. -/
theorem ofContent_eq_ok_iff {content : List UInt8} {array : NumericArray} :
    ofContent content = .ok array ↔
      ∃ elements, Layout array.data.elementType array.shape elements content ∧
        array.data.ReadFrom elements := by
  constructor
  · intro isOk
    unfold ofContent at isOk
    split at isOk
    · contradiction
    · rename_i shape data parsed
      obtain ⟨rfl, rfl⟩ := parts_of_ofShape isOk
      exact exists_layout parsed
  · rintro ⟨elements, layout, isRead⟩
    simp only [ofContent, layout.parseContent_eq isRead]
    exact ofShape_eq_ok array.covers

theorem codec_of_ofContent {content : List UInt8} {error : Error}
    (failed : ofContent content = .error error) : ∃ fault, error = .codec fault := by
  unfold ofContent at failed
  split at failed
  · cases failed
    exact ⟨_, rfl⟩
  · rename_i shape data parsed
    obtain ⟨elements, layout, isRead⟩ := exists_layout parsed
    rw [ofShape_eq_ok (layout.covers isRead)] at failed
    contradiction

theorem Layout.exists_array {type : ElementType} {shape : List UInt64}
    {elements content : List UInt8} (layout : Layout type shape elements content) :
    ∃ array, ofContent content = .ok array ∧ array.shape = shape ∧
      array.data.elementType = type ∧ array.data.ReadFrom elements := by
  obtain ⟨data, isRead, rfl, _⟩ := ArrayData.exists_readFrom layout.enough
  exact ⟨⟨shape, data, layout.covers isRead⟩, ofContent_eq_ok_iff.mpr ⟨elements, layout, isRead⟩,
    rfl, rfl, isRead⟩

theorem ofBlob_eq {blob content : List UInt8} (isContent : Zlib.decompress? blob = some content) :
    ofBlob blob = ofContent content := by
  rw [ofBlob, isContent]

/-- A blob is read exactly if its content has a layout.  The array then has the shape and the
elements of the layout, its own blob has the same content but for the bytes of truth, and every
other content is a fault of the format. -/
theorem ofBlob_accepts_layouts {blob content : List UInt8}
    (isContent : Zlib.decompress? blob = some content) :
    ((∃ array, ofBlob blob = .ok array) ↔
        ∃ type shape elements, Layout type shape elements content) ∧
      (∀ type shape elements, Layout type shape elements content →
        ∀ array, ofBlob blob = .ok array →
          array.shape = shape ∧ array.data.elementType = type ∧ array.data.ReadFrom elements ∧
            Zlib.decompress? array.toBlob =
              some (header type shape ++ type.canonical elements)) ∧
      ∀ error, ofBlob blob = .error error → ∃ fault, error = .codec fault := by
  rw [ofBlob_eq isContent]
  refine ⟨⟨?_, ?_⟩, ?_, fun _ => codec_of_ofContent⟩
  · rintro ⟨array, isOk⟩
    obtain ⟨elements, layout, _⟩ := ofContent_eq_ok_iff.mp isOk
    exact ⟨_, _, elements, layout⟩
  · rintro ⟨type, shape, elements, layout⟩
    obtain ⟨array, isOk, _⟩ := layout.exists_array
    exact ⟨array, isOk⟩
  · intro type shape elements layout array isOk
    obtain ⟨_, isSame, rfl, rfl, isRead⟩ := layout.exists_array
    cases isOk.symm.trans isSame
    refine ⟨rfl, rfl, isRead, ?_⟩
    rw [toBlob, Zlib.decompress?_compress, content_eq_append, isRead.payload_eq]

/-- Three truths in a row, two of them with bytes that are never written. -/
def maskContent : List UInt8 :=
  header .bool [3] ++ [7, 0, 0xFF]

theorem ofBlob_accepts_layouts_mask :
    (Zlib.decompress? (Zlib.compress maskContent) = some maskContent ∧
        Layout .bool [3] [7, 0, 0xFF] maskContent) ∧
      ∃ array, ofBlob (Zlib.compress maskContent) = .ok array ∧ array.shape = [3] ∧
        array.data.ReadFrom [7, 0, 0xFF] ∧
          Zlib.decompress? array.toBlob = some (header .bool [3] ++ [1, 0, 1]) := by
  have isContent := Zlib.decompress?_compress maskContent
  have layout : Layout .bool [3] [7, 0, 0xFF] maskContent := by
    have counted : elementCount [3] = some 3 := rfl
    exact ⟨by decide, (elementCount_eq_some_iff.mp counted).1, rfl, rfl⟩
  obtain ⟨accepted, reads, _⟩ := ofBlob_accepts_layouts isContent
  obtain ⟨array, isOk⟩ := accepted.mpr ⟨_, _, _, layout⟩
  obtain ⟨isShape, _, isRead, again⟩ := reads _ _ _ layout array isOk
  exact ⟨⟨isContent, layout⟩, array, isOk, isShape, isRead, again⟩

/-- An array comes back from every blob that has its content. -/
theorem ofBlob_of_content {array : NumericArray} (few : array.dimensions < twoTo 32)
    {blob : List UInt8} (isContent : Zlib.decompress? blob = some array.content) :
    ofBlob blob = .ok array := by
  have isRead := array.data.readFrom_payload
  obtain ⟨bounded, counted⟩ := elementCount_eq_some_iff.mp array.covers
  have layout : Layout array.data.elementType array.shape (payload array.data) array.content :=
    ⟨few, bounded, counted ▸ isRead.length_eq, array.content_eq_append⟩
  rw [ofBlob_eq isContent]
  exact ofContent_eq_ok_iff.mpr ⟨_, layout, isRead⟩

theorem ofBlob_toBlob {array : NumericArray} (few : array.dimensions < twoTo 32) :
    ofBlob array.toBlob = .ok array :=
  ofBlob_of_content few (Zlib.decompress?_compress array.content)

/-- An array that was built from a shape with fewer than `2 ^ 32` dimensions, or from elements in
a row, comes back with that shape and the same bits, however its content is compressed. -/
theorem built_array_returns {compress : List UInt8 → List UInt8}
    (inverts : ∀ bytes, Zlib.decompress? (compress bytes) = some bytes) :
    (∀ shape data array, ofShape shape data = .ok array → array.dimensions < twoTo 32 →
        array.shape = shape ∧ array.data = data ∧
          ofBlob (compress array.content) = .ok array) ∧
      ∀ data : ArrayData, data.length < twoTo 64 → ∃ array, vector data = .ok array ∧
        array.shape = rowShape data ∧ array.data = data ∧
          ofBlob (compress array.content) = .ok array := by
  constructor
  · intro shape data array built few
    obtain ⟨isShape, isData⟩ := parts_of_ofShape built
    exact ⟨isShape, isData, ofBlob_of_content few (inverts _)⟩
  · intro data short
    have built : vector data = .ok ⟨rowShape data, data, elementCount_rowShape short⟩ :=
      ofShape_eq_ok (elementCount_rowShape short)
    refine ⟨_, built, rfl, rfl, ofBlob_of_content ?_ (inverts _)⟩
    show 1 < twoTo 32
    decide

/-- Two numbers that are none, with different bits, and a negative zero. -/
def samples : ArrayData :=
  .float [⟨0x7FF8000000000001⟩, ⟨0xFFF0000000000002⟩, ⟨0x8000000000000000⟩]

theorem built_array_returns_samples :
    (∀ bytes, Zlib.decompress? (Zlib.compress bytes) = some bytes) ∧
      (∃ array, ofShape [1, 3] samples = .ok array ∧ array.dimensions < twoTo 32 ∧
        array.data = samples ∧ ofBlob (Zlib.compress array.content) = .ok array) ∧
      (samples.length < twoTo 64 ∧ ∃ array, vector samples = .ok array ∧
        array.shape = [3] ∧ ofBlob (Zlib.compress array.content) = .ok array) := by
  obtain ⟨shaped, inRow⟩ := built_array_returns Zlib.decompress?_compress
  have built : ofShape [1, 3] samples = .ok ⟨[1, 3], samples, rfl⟩ := rfl
  obtain ⟨_, isData, returns⟩ := shaped _ _ _ built (by decide)
  obtain ⟨row, isRow, isShape, _, rowReturns⟩ := inRow samples (by decide)
  exact ⟨Zlib.decompress?_compress, ⟨_, built, by decide, isData, returns⟩, by decide, row, isRow,
    isShape, rowReturns⟩

end NumericArray

end SchemaTree
