import SchemaTree.Proofs.Storage.Settling

/-!
Vectors in a store.  A vector field accepts arrays of at most one dimension, rows of numbers and
all blobs, and it stores each of them.  What is read back is an array, and it has one dimension
exactly if the value was a row, an array of one dimension, or a blob with the layout of such an
array.
-/

namespace SchemaTree

open NumericArray

/-- A blob is read as an array of one dimension exactly if its content has a layout of one size. -/
theorem NumericArray.exists_row_of_blob_iff {blob : List UInt8} :
    (∃ array, ofBlob blob = .ok array ∧ array.dimensions = 1) ↔
      ∃ content type size elements, Zlib.decompress? blob = some content ∧
        Layout type [size] elements content := by
  constructor
  · rintro ⟨array, isRead, single⟩
    cases isContent : Zlib.decompress? blob with
    | none =>
        rw [ofBlob, isContent] at isRead
        contradiction
    | some content =>
        rw [ofBlob_eq isContent] at isRead
        obtain ⟨elements, layout, _⟩ := ofContent_eq_ok_iff.mp isRead
        obtain ⟨size, isRow⟩ := List.length_eq_one_iff.mp single
        exact ⟨content, _, size, elements, rfl, isRow ▸ layout⟩
  · rintro ⟨content, type, size, elements, isContent, layout⟩
    obtain ⟨array, isRead, isRow, _⟩ := layout.exists_array
    refine ⟨array, (ofBlob_eq isContent).trans isRead, ?_⟩
    rw [dimensions, isRow]
    rfl

namespace Value

/-- Whether a value that a vector field accepts holds one dimension. -/
def IsRow : Value → Prop
  | .array found => found.dimensions = 1
  | .list _ => True
  | .binary bytes => ∃ content type size elements, Zlib.decompress? bytes = some content ∧
      Layout type [size] elements content
  | _ => False

theorem readArray_toBlob {found : NumericArray} (few : found.dimensions < twoTo 32) :
    readArray (.binary found.toBlob) = .ok (.array found) := by
  rw [readArray, ofBlob_toBlob few]
  rfl

theorem readArray_blob_eq_ok_iff {bytes : List UInt8} {result : Value} :
    readArray (.binary bytes) = .ok result ↔
      ∃ found, ofBlob bytes = .ok found ∧ .array found = result :=
  map_eq_ok_iff

end Value

/-- The forms in which a value of a vector field is stored: the blob of an array, or a blob that
was there before. -/
theorem Kind.exists_blob_of_vector {value : Value} (checked : vector.checkScalar value = .ok ())
    (short : ∀ items, value = .list items → items.length < twoTo 64) :
    ∃ blob, (∀ location, vector.storeScalar location value = .ok (.binary blob)) ∧
      ((∃ found, ofBlob blob = .ok found ∧ found.dimensions = 1) ↔ value.IsRow) := by
  have ofArray (found : NumericArray) (few : found.dimensions ≤ 1) :
      (∃ other, ofBlob found.toBlob = .ok other ∧ other.dimensions = 1) ↔
        found.dimensions = 1 := by
    have bounded : found.dimensions < twoTo 32 := Nat.lt_of_le_of_lt few (by decide)
    rw [ofBlob_toBlob bounded]
    constructor
    · rintro ⟨other, ⟨⟩, single⟩
      exact single
    · intro single
      exact ⟨found, rfl, single⟩
  cases value with
  | array found =>
      have few : found.dimensions ≤ 1 := of_decide_eq_true (ensure_eq_ok_iff.mp checked)
      exact ⟨found.toBlob, fun _ => rfl, ofArray found few⟩
  | list items =>
      have numeric := ensure_eq_ok_iff.mp checked
      obtain ⟨found, isArray, single⟩ := toArray_of_numeric numeric (short items rfl)
      refine ⟨found.toBlob, ?_, ?_⟩
      · intro location
        rw [storeScalar, Value.storeArray, isArray]
        rfl
      · rw [ofArray found (Nat.le_of_eq single)]
        exact iff_of_true single trivial
  | binary bytes => exact ⟨bytes, fun _ => rfl, exists_row_of_blob_iff⟩
  | _ => contradiction

namespace Field

/-- What a vector field accepts, it stores.  Whatever is read back is an array, and an array of one
dimension is read back exactly if the value holds one dimension: a row always does, an array of no
dimension does not, and a blob does by its content, at which validation does not look. -/
theorem stored_vector_reads_iff {attributes : Attributes} {value : Value}
    (present : value.isNull = false)
    (valid : Field.validate ⟨attributes, .vector⟩ value = .ok ())
    (short : ∀ items, value = .list items → items.length < twoTo 64) :
    ∃ stored, Field.store value ⟨attributes, .vector⟩ = .ok stored ∧
      ((∃ found, Field.read stored ⟨attributes, .vector⟩ = .ok (.array found) ∧
          found.dimensions = 1) ↔ value.IsRow) ∧
      ∀ result, Field.read stored ⟨attributes, .vector⟩ = .ok result →
        ∃ found, result = .array found := by
  have isScalar : Kind.vector.isScalar = true := rfl
  rw [validate, validateAt, present, if_neg (by decide), check_scalar isScalar,
    located_eq_ok_iff] at valid
  obtain ⟨blob, isStored, isRow⟩ := Kind.exists_blob_of_vector valid short
  have isRead : Field.read (.binary blob) ⟨attributes, .vector⟩ =
      Value.readArray (.binary blob) := read_scalar isScalar rfl
  refine ⟨.binary blob, (store_scalar isScalar present).trans (isStored _), ?_, ?_⟩
  · rw [isRead, ← isRow]
    constructor
    · rintro ⟨found, returned, single⟩
      obtain ⟨same, isFound, ⟨⟩⟩ := Value.readArray_blob_eq_ok_iff.mp returned
      exact ⟨found, isFound, single⟩
    · rintro ⟨found, isFound, single⟩
      exact ⟨found, Value.readArray_blob_eq_ok_iff.mpr ⟨found, isFound, rfl⟩, single⟩
  · intro result returned
    rw [isRead] at returned
    obtain ⟨found, _, isArray⟩ := Value.readArray_blob_eq_ok_iff.mp returned
    exact ⟨found, isArray.symm⟩

end Field

/-- Weights given as numbers of all kinds, and a truth. -/
def weights : Value :=
  .list [.int 3, .float .nan, .bool true]

theorem stored_vector_reads_weights :
    weights.isNull = false ∧ Field.validate (.vector "weights") weights = .ok () ∧
      (∀ items, weights = .list items → items.length < twoTo 64) ∧
      ∃ stored found, Field.store weights (.vector "weights") = .ok stored ∧
        Field.read stored (.vector "weights") = .ok (.array found) ∧ found.dimensions = 1 := by
  have short : ∀ items, weights = .list items → items.length < twoTo 64 := by
    rintro items ⟨⟩
    decide
  obtain ⟨stored, isStored, returns, _⟩ :=
    @Field.stored_vector_reads_iff (Field.vector "weights").attributes weights rfl rfl short
  obtain ⟨found, isRead, single⟩ := returns.mpr trivial
  exact ⟨rfl, rfl, short, stored, found, isStored, isRead, single⟩

/-- A matrix of one number. -/
def unitMatrix : NumericArray :=
  ⟨[1, 1], .int [7], rfl⟩

/-- A number with no dimension. -/
def unitScalar : NumericArray :=
  ⟨[], .int [7], rfl⟩

/-- A matrix is refused, but its blob is stored and read as a matrix; a number with no dimension is
stored, and comes back without one; and bytes that are no blob are stored, and cannot be read. -/
theorem dimension_unchecked_unitMatrix :
    (Field.validate (.vector "weights") (.array unitMatrix) =
          .error (.invalid (some "weights") .vectorDimensions) ∧
        Field.validate (.vector "weights") (.binary unitMatrix.toBlob) = .ok () ∧
        Field.store (.binary unitMatrix.toBlob) (.vector "weights") =
          .ok (.binary unitMatrix.toBlob) ∧
        Field.read (.binary unitMatrix.toBlob) (.vector "weights") = .ok (.array unitMatrix) ∧
        unitMatrix.dimensions ≠ 1) ∧
      (Field.validate (.vector "weights") (.array unitScalar) = .ok () ∧
        Field.store (.array unitScalar) (.vector "weights") = .ok (.binary unitScalar.toBlob) ∧
        Field.read (.binary unitScalar.toBlob) (.vector "weights") = .ok (.array unitScalar) ∧
        unitScalar.dimensions ≠ 1) ∧
      Field.validate (.vector "weights") (.binary [0]) = .ok () ∧
        Field.store (.binary [0]) (.vector "weights") = .ok (.binary [0]) ∧
        Field.read (.binary [0]) (.vector "weights") = .error (.codec .compression) :=
  ⟨⟨rfl, rfl, rfl, Value.readArray_toBlob (by decide), by decide⟩,
    ⟨rfl, rfl, Value.readArray_toBlob (by decide), by decide⟩, rfl, rfl, rfl⟩

end SchemaTree
