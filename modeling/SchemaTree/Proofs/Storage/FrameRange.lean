import SchemaTree.Proofs.Binary64.Truncation
import SchemaTree.Proofs.Storage.Settling

/-!
Ranges of frames in a store.  A pair of a first and a last frame is checked by the doubles of its
numbers and stored by their whole numbers.  What is stored are frame numbers, and they are in order
exactly if the whole numbers are: two doubles always are, once they have 64 bits, and so is a pair
whose first number has up to 53 bits.
-/

namespace SchemaTree

namespace Value

/-- The whole number that a number has; a double has to be finite, and loses its fraction. -/
def whole? : Value → Option Int
  | int number => some number.toInt
  | float number => if number.isFinite then some number.truncate else none
  | _ => none

/-- Whether a value is a pair of numbers whose whole numbers are in order and have 64 bits. -/
def IsWholeRange (value : Value) : Prop :=
  ∃ first last least greatest, value = .list [first, last] ∧ first.whole? = some least ∧
    last.whole? = some greatest ∧ least ≤ greatest ∧ greatest < twoTo 63

/-- The two numbers of a range of frames. -/
theorem exists_frames {value : Value} (isRange : value.isFrameRange = true) :
    ∃ first last left right, value = .list [first, last] ∧ first.number? = some left ∧
      last.number? = some right ∧ (Binary64.ofInt 1).le left = true ∧ left.le right = true := by
  unfold isFrameRange at isRange
  split at isRange
  · rename_i left right isPair
    obtain ⟨first, last, isList, isLeft, isRight⟩ := exists_items_of_numberPair? isPair
    rw [Bool.and_eq_true] at isRange
    exact ⟨first, last, left, right, isList, isLeft, isRight, isRange.1, isRange.2⟩
  · contradiction

theorem whole?_float_eq_some_iff {number : Binary64} {whole : Int} :
    (float number).whole? = some whole ↔ number.isFinite = true ∧ number.truncate = whole := by
  rw [whole?]
  split
  · rename_i finite
    rw [Option.some.injEq, and_iff_right finite]
  · rename_i infinite
    exact iff_of_false (by simp) fun finite => infinite finite.1

section Frames

variable {value : Value} {number : Binary64} (isNumber : value.number? = some number)

include isNumber

/-- The double of a number is truncated to its whole number, unless the number is an integer of more
than 53 bits. -/
theorem truncate_eq_whole {whole : Int} (isWhole : value.whole? = some whole)
    (exact : value.isFloat = true ∨ whole.natAbs ≤ twoTo 53) : number.truncate = whole := by
  cases value with
  | int integer =>
      cases isNumber
      cases isWhole
      exact Binary64.truncate_ofInt (exact.resolve_left Bool.false_ne_true)
  | float double =>
      cases isNumber
      exact (whole?_float_eq_some_iff.mp isWhole).2
  | _ => contradiction

/-- The whole number of a number whose double is one or more. -/
theorem one_le_of_whole? {whole : Int} (isWhole : value.whole? = some whole)
    (least : (Binary64.ofInt 1).le number = true) : 1 ≤ whole := by
  cases value with
  | int integer =>
      cases isNumber
      cases isWhole
      exact Binary64.one_le_of_le_ofInt least
  | float double =>
      cases isNumber
      rw [← (whole?_float_eq_some_iff.mp isWhole).2]
      exact Binary64.one_le_truncate least
  | _ => contradiction

/-- A number whose double is one or more is cast to its whole number, if that has 64 bits. -/
theorem toInt_eq_ok_iff (least : (Binary64.ofInt 1).le number = true) {frame : Int64} :
    value.toInt = .ok frame ↔ value.whole? = some frame.toInt := by
  cases value with
  | int integer =>
      rw [toInt, whole?, Except.ok.injEq, Option.some.injEq, Int64.toInt_inj]
  | float double =>
      cases isNumber
      have isPart := Binary64.truncate_eq_wholePart (Binary64.one_le_truncate least)
      rw [toInt, truncateFloat_eq_ok_iff, whole?_float_eq_some_iff]
      constructor
      · rintro ⟨finite, _, same⟩
        exact ⟨finite, same⟩
      · rintro ⟨finite, same⟩
        have near : number.wholePart < twoTo 63 := by
          have short : frame.toInt < twoTo 63 := frame.toInt_lt
          omega
        exact ⟨finite, near, same⟩
  | _ => contradiction

end Frames

/-- Whole numbers are in the order of the doubles, if both numbers are doubles or the first whole
number has up to 53 bits. -/
theorem whole_le_whole {first last : Value} {left right : Binary64} {least greatest : Int}
    (isLeft : first.number? = some left) (isRight : last.number? = some right)
    (isLeast : first.whole? = some least) (isGreatest : last.whole? = some greatest)
    (leastPositive : 1 ≤ least) (greatestPositive : 1 ≤ greatest) (ordered : left.le right = true)
    (exact : first.isFloat = true ∧ last.isFloat = true ∨ least ≤ twoTo 53) :
    least ≤ greatest := by
  have truncated := Binary64.truncate_le_truncate ordered
  have isLow : left.truncate = least :=
    truncate_eq_whole isLeft isLeast (exact.imp And.left fun short => by omega)
  by_cases rounded : last.isFloat = true ∨ greatest.natAbs ≤ twoTo 53
  · have isHigh := truncate_eq_whole isRight isGreatest rounded
    omega
  · -- The last number is an integer of more than 53 bits, so the first one has fewer.
    rw [not_or] at rounded
    have short := exact.resolve_left fun floats => rounded.1 floats.2
    omega

end Value

namespace Field

variable {attributes inner : Attributes} {value : Value}

theorem isFrameRange_of_validate (present : value.isNull = false)
    (valid : Field.validate ⟨attributes, .list .frameSupport (some ⟨inner, .int⟩)⟩ value = .ok ()) :
    value.isFrameRange = true := by
  rw [validate, validateAt, present, if_neg (by decide)] at valid
  obtain ⟨entries, areItems, _⟩ := bind_eq_ok_iff.mp valid
  obtain ⟨_, isEnsured, _⟩ := map_eq_ok_iff.mp (located_eq_ok_iff.mp areItems)
  exact ensure_eq_ok_iff.mp isEnsured

/-- An integer field stores a number whose double is one or more as its whole number. -/
theorem store_frame_eq_ok_iff {number : Binary64} {stored : Value}
    (isNumber : value.number? = some number) (least : (Binary64.ofInt 1).le number = true) :
    Field.store value ⟨inner, .int⟩ = .ok stored ↔
      ∃ frame : Int64, value.whole? = some frame.toInt ∧ stored = .int frame := by
  have present : value.isNull = false := by
    cases value <;> first | rfl | contradiction
  rw [store_scalar rfl present, Kind.storeScalar, located_eq_ok_iff, map_eq_ok_iff]
  constructor
  · rintro ⟨frame, isFrame, rfl⟩
    exact ⟨frame, (Value.toInt_eq_ok_iff isNumber least).mp isFrame, rfl⟩
  · rintro ⟨frame, isWhole, rfl⟩
    exact ⟨frame, (Value.toInt_eq_ok_iff isNumber least).mpr isWhole, rfl⟩

/-- What a pair of frames is stored as. -/
theorem store_frames_eq_ok_iff {first last : Value} {left right : Binary64} {stored : Value}
    (isLeft : first.number? = some left) (isRight : last.number? = some right)
    (least : (Binary64.ofInt 1).le left = true) (ordered : left.le right = true) :
    Field.store (.list [first, last])
        ⟨attributes, .list .frameSupport (some ⟨inner, .int⟩)⟩ = .ok stored ↔
      ∃ low high : Int64, first.whole? = some low.toInt ∧ last.whole? = some high.toInt ∧
        stored = .list [.int low, .int high] := by
  have lastLeast := Binary64.le_trans least ordered
  rw [Field.store, map_eq_ok_iff]
  constructor
  · rintro ⟨items, areItems, rfl⟩
    rw [mapEach_eq_ok_iff] at areItems
    obtain _ | ⟨isFirst, _ | ⟨isLast, ⟨⟩⟩⟩ := areItems
    obtain ⟨low, isLow, rfl⟩ := (store_frame_eq_ok_iff isLeft least).mp isFirst
    obtain ⟨high, isHigh, rfl⟩ := (store_frame_eq_ok_iff isRight lastLeast).mp isLast
    exact ⟨low, high, isLow, isHigh, rfl⟩
  · rintro ⟨low, high, isLow, isHigh, rfl⟩
    have isFirst : Field.store first ⟨inner, .int⟩ = .ok (.int low) :=
      (store_frame_eq_ok_iff isLeft least).mpr ⟨low, isLow, rfl⟩
    have isLast : Field.store last ⟨inner, .int⟩ = .ok (.int high) :=
      (store_frame_eq_ok_iff isRight lastLeast).mpr ⟨high, isHigh, rfl⟩
    exact ⟨_, mapEach_eq_ok_iff.mpr (.cons isFirst (.cons isLast .nil)), rfl⟩

/-- A range of frames is accepted by the doubles of its numbers.  What is stored is a pair of frame
numbers, and a range in order is stored exactly if the whole numbers are in order and have 64 bits.
They are in order if both numbers are doubles, or if the first has up to 53 bits. -/
theorem stored_frame_range_iff (present : value.isNull = false)
    (valid : Field.validate ⟨attributes, .list .frameSupport (some ⟨inner, .int⟩)⟩ value = .ok ()) :
    (∀ stored, Field.store value ⟨attributes, .list .frameSupport (some ⟨inner, .int⟩)⟩ =
        .ok stored → ∃ low high : Int64, stored = .list [.int low, .int high] ∧
          1 ≤ low.toInt ∧ 1 ≤ high.toInt) ∧
      ((∃ low high : Int64, Field.store value
          ⟨attributes, .list .frameSupport (some ⟨inner, .int⟩)⟩ =
            .ok (.list [.int low, .int high]) ∧ 1 ≤ low.toInt ∧ low.toInt ≤ high.toInt) ↔
        value.IsWholeRange) ∧
      ∀ first last least greatest, value = .list [first, last] → first.whole? = some least →
        last.whole? = some greatest →
          first.isFloat = true ∧ last.isFloat = true ∨ least ≤ twoTo 53 → least ≤ greatest := by
  obtain ⟨first, last, left, right, rfl, isLeft, isRight, atLeastOne, ordered⟩ :=
    Value.exists_frames (isFrameRange_of_validate present valid)
  have lastAtLeastOne := Binary64.le_trans atLeastOne ordered
  have isStored := fun stored => @store_frames_eq_ok_iff attributes inner first last left right
    stored isLeft isRight atLeastOne ordered
  refine ⟨?_, ⟨?_, ?_⟩, ?_⟩
  · intro stored returned
    obtain ⟨low, high, isLow, isHigh, rfl⟩ := (isStored stored).mp returned
    exact ⟨low, high, rfl, Value.one_le_of_whole? isLeft isLow atLeastOne,
      Value.one_le_of_whole? isRight isHigh lastAtLeastOne⟩
  · rintro ⟨low, high, returned, _, inOrder⟩
    obtain ⟨_, _, isLow, isHigh, ⟨⟩⟩ := (isStored _).mp returned
    exact ⟨first, last, _, _, rfl, isLow, isHigh, inOrder, high.toInt_lt⟩
  · rintro ⟨_, _, least, greatest, ⟨⟩, isLeast, isGreatest, inOrder, short⟩
    have positive := Value.one_le_of_whole? isLeft isLeast atLeastOne
    have limit : twoTo 63 = 9223372036854775808 := rfl
    have lowExact : (Int64.ofInt least).toInt = least :=
      Int64.toInt_ofInt_of_le (by omega) (by omega)
    have highExact : (Int64.ofInt greatest).toInt = greatest :=
      Int64.toInt_ofInt_of_le (by omega) (by omega)
    refine ⟨.ofInt least, .ofInt greatest, (isStored _).mpr ⟨_, _, ?_, ?_, rfl⟩, ?_, ?_⟩
    · rw [lowExact, isLeast]
    · rw [highExact, isGreatest]
    · rw [lowExact]
      exact positive
    · rw [lowExact, highExact]
      exact inOrder
  · rintro _ _ least greatest ⟨⟩ isLeast isGreatest exact
    exact Value.whole_le_whole isLeft isRight isLeast isGreatest
      (Value.one_le_of_whole? isLeft isLeast atLeastOne)
      (Value.one_le_of_whole? isRight isGreatest lastAtLeastOne) ordered exact

end Field

/-- A clip that ends at a whole frame, but does not begin with one. -/
def clip : Value :=
  .list [.float ⟨0x3FF8000000000000⟩, .int 9]

theorem stored_frame_range_clip :
    clip.isNull = false ∧ Field.validate (.frameSupport "support") clip = .ok () ∧
      clip.IsWholeRange ∧
        ∃ low high : Int64, Field.store clip (.frameSupport "support") =
          .ok (.list [.int low, .int high]) ∧ 1 ≤ low.toInt ∧ low.toInt ≤ high.toInt := by
  have valid : Field.validate (.frameSupport "support") clip = .ok () := rfl
  have inOrder : clip.IsWholeRange := ⟨_, _, 1, 9, rfl, rfl, rfl, by decide, by decide⟩
  obtain ⟨_, stores, _⟩ := Field.stored_frame_range_iff rfl valid
  exact ⟨rfl, valid, inOrder, stores.mpr inOrder⟩

/-- Two frames of more than 53 bits have one double, so they are accepted in the wrong order and
stored so; and a range with no end is accepted, and then cannot be stored. -/
theorem frames_stored_out_of_order :
    (Field.validate (.frameSupport "support")
          (.list [.int 9007199254740993, .int 9007199254740992]) = .ok () ∧
        Field.store (.list [.int 9007199254740993, .int 9007199254740992])
            (.frameSupport "support") =
          .ok (.list [.int 9007199254740993, .int 9007199254740992]) ∧
        ¬(9007199254740993 : Int64).toInt ≤ (9007199254740992 : Int64).toInt) ∧
      Field.validate (.frameSupport "support")
          (.list [.int 1, .float (Binary64.infinity false)]) = .ok () ∧
        Field.store (.list [.int 1, .float (Binary64.infinity false)]) (.frameSupport "support") =
          .error (.invalid (some "support") (.notInt "inf")) :=
  ⟨⟨rfl, rfl, by decide⟩, rfl, rfl⟩

end SchemaTree
