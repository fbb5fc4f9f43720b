import SchemaTree.Power
import SchemaTree.Zlib.Stream

/-!
Compressed streams read back: the bits of bytes, stored blocks one after the other, and the whole
stream with its header and checksum.
-/

namespace SchemaTree.Zlib

/-! ## Bits -/

theorem takeBits?_append {width value : Nat} {bits left : List Bool}
    (taken : takeBits? width bits = some (value, left)) (rest : List Bool) :
    takeBits? width (bits ++ rest) = some (value, left ++ rest) := by
  induction width generalizing bits value left with
  | zero =>
      simp only [takeBits?, Option.some.injEq, Prod.mk.injEq] at taken ⊢
      exact ⟨taken.1, taken.2 ▸ rfl⟩
  | succ width inductionHypothesis =>
      cases bits with
      | nil => contradiction
      | cons bit bits =>
          simp only [takeBits?, Option.map_eq_some_iff, Prod.mk.injEq] at taken
          obtain ⟨⟨inner, remaining⟩, read, whole, same⟩ := taken
          dsimp only at whole same
          rw [List.cons_append, takeBits?, inductionHypothesis read, Option.map_some, same]
          simp only [whole]

theorem takeBits?_add {first second low high : Nat} {bits middle rest : List Bool}
    (lowTaken : takeBits? first bits = some (low, middle))
    (highTaken : takeBits? second middle = some (high, rest)) :
    takeBits? (first + second) bits = some (low + twoTo first * high, rest) := by
  induction first generalizing bits low with
  | zero =>
      simp only [takeBits?, Option.some.injEq, Prod.mk.injEq] at lowTaken
      rw [Nat.zero_add, lowTaken.2, highTaken, ← lowTaken.1]
      simp only [Option.some.injEq, Prod.mk.injEq, and_true]
      show high = 0 + 1 * high
      omega
  | succ first inductionHypothesis =>
      cases bits with
      | nil => contradiction
      | cons bit bits =>
          simp only [takeBits?, Option.map_eq_some_iff, Prod.mk.injEq] at lowTaken
          obtain ⟨⟨inner, remaining⟩, read, whole, same⟩ := lowTaken
          dsimp only at whole same
          rw [same] at read
          rw [Nat.succ_add, takeBits?, inductionHypothesis read, Option.map_some]
          simp only [Option.some.injEq, Prod.mk.injEq, and_true]
          have double : twoTo (first + 1) = twoTo first * 2 := twoTo_add first 1
          rw [← whole, double, Nat.mul_add, Nat.mul_comm (twoTo first) 2, Nat.mul_assoc]
          omega

theorem takeBits?_byteBits (byte : UInt8) (rest : List Bool) :
    takeBits? 8 (byteBits byte ++ rest) = some (byte.toNat, rest) := by
  have cases : ∀ value : Fin 256,
      takeBits? 8 ((List.range 8).map value.val.testBit) = some (value.val, []) := by
    decide +kernel
  exact takeBits?_append (cases ⟨byte.toNat, byte.toNat_lt⟩) rest

theorem bitsOf_cons (byte : UInt8) (bytes : List UInt8) :
    bitsOf (byte :: bytes) = byteBits byte ++ bitsOf bytes :=
  rfl

theorem bitsOf_append (first second : List UInt8) :
    bitsOf (first ++ second) = bitsOf first ++ bitsOf second :=
  List.flatMap_append

theorem length_bitsOf (bytes : List UInt8) : (bitsOf bytes).length = 8 * bytes.length := by
  induction bytes with
  | nil => rfl
  | cons byte bytes inductionHypothesis =>
      rw [bitsOf_cons, List.length_append, inductionHypothesis, List.length_cons, byteBits,
        List.length_map, List.length_range]
      omega

theorem alignToByte_append {bits : List Bool} (partly : bits.length < 8) (bytes : List UInt8) :
    alignToByte (bits ++ bitsOf bytes) = bitsOf bytes := by
  have left : (bits ++ bitsOf bytes).length % 8 = bits.length := by
    rw [List.length_append, length_bitsOf]
    omega
  rw [alignToByte, left, List.drop_left]

theorem alignToByte_bitsOf (bytes : List UInt8) : alignToByte (bitsOf bytes) = bitsOf bytes :=
  @alignToByte_append [] (by decide) bytes

theorem takeBytes?_bitsOf (bytes : List UInt8) (rest : List Bool) :
    takeBytes? bytes.length (bitsOf bytes ++ rest) = some (bytes, rest) := by
  induction bytes with
  | nil => rfl
  | cons byte bytes inductionHypothesis =>
      rw [List.length_cons, bitsOf_cons, List.append_assoc, takeBytes?, takeBits?_byteBits,
        Option.bind_some]
      simp only [inductionHypothesis, Option.map_some, UInt8.ofNat_toNat]

theorem takeBits?_word {value : Nat} (small : value < 65536) (bytes : List UInt8) :
    takeBits? 16 (bitsOf (UInt8.ofNat value :: UInt8.ofNat (value / 256) :: bytes)) =
      some (value, bitsOf bytes) := by
  have low := takeBits?_byteBits (UInt8.ofNat value)
    (byteBits (UInt8.ofNat (value / 256)) ++ bitsOf bytes)
  have high := takeBits?_byteBits (UInt8.ofNat (value / 256)) (bitsOf bytes)
  rw [bitsOf_cons, bitsOf_cons]
  refine (takeBits?_add low high).trans ?_
  rw [UInt8.toNat_ofNat', UInt8.toNat_ofNat']
  simp only [Option.some.injEq, Prod.mk.injEq, and_true]
  show value % 256 + 256 * (value / 256 % 256) = value
  omega

/-! ## Stored blocks -/

/-- The mark of a stored block, without the five bits that fill its byte. -/
theorem takeBits?_mark (last : Bool) (rest : List Bool) :
    ∃ filling : List Bool, filling.length = 5 ∧
      takeBits? 3 (byteBits (if last then 1 else 0) ++ rest) =
        some (last.toNat, filling ++ rest) := by
  refine ⟨[false, false, false, false, false], rfl, takeBits?_append ?_ rest⟩
  cases last <;> decide

theorem toList_foldl_push (output : Array UInt8) (bytes : List UInt8) :
    (bytes.foldl Array.push output).toList = output.toList ++ bytes := by
  induction bytes generalizing output with
  | nil => exact (List.append_nil _).symm
  | cons byte bytes inductionHypothesis =>
      rw [List.foldl_cons, inductionHypothesis, Array.toList_push, List.append_assoc,
        List.singleton_append]

theorem inflateStored_block (last : Bool) {filling : List Bool} (partly : filling.length = 5)
    {bytes : List UInt8} (fits : bytes.length ≤ storedLimit) (output : Array UInt8)
    (rest : List UInt8) :
    inflateStored output (filling ++ bitsOf ((storedBlock last bytes).tail ++ rest)) =
      some (bytes.foldl Array.push output, bitsOf rest) := by
  have small : bytes.length ≤ 65535 := fits
  rw [inflateStored, alignToByte_append (by omega)]
  simp only [storedBlock, List.cons_append, List.tail_cons, List.nil_append]
  rw [takeBits?_word (by omega), Option.bind_some]
  simp only
  rw [takeBits?_word (by omega), Option.bind_some]
  simp only
  rw [if_pos (by omega), bitsOf_append, takeBytes?_bitsOf]
  rfl

theorem inflateBlocks_block {last : Bool} {bytes : List UInt8} (fits : bytes.length ≤ storedLimit)
    (output : Array UInt8) (rest : List UInt8) :
    inflateBlocks output (bitsOf (storedBlock last bytes ++ rest)) =
      if last then some (bytes.foldl Array.push output, bitsOf rest)
      else inflateBlocks (bytes.foldl Array.push output) (bitsOf rest) := by
  obtain ⟨filling, partly, mark⟩ := takeBits?_mark last
    (bitsOf ((storedBlock last bytes).tail ++ rest))
  have body := inflateStored_block last partly fits output rest
  have opening : bitsOf (storedBlock last bytes ++ rest) =
      byteBits (if last then 1 else 0) ++ bitsOf ((storedBlock last bytes).tail ++ rest) := rfl
  rw [opening, inflateBlocks]
  split
  · rename_i none_taken
    rw [mark] at none_taken
    contradiction
  · rename_i value afterMark taken
    rw [mark] at taken
    simp only [Option.some.injEq, Prod.mk.injEq] at taken
    obtain ⟨value_eq, after_eq⟩ := taken
    subst value_eq after_eq
    have kind : last.toNat / 2 = 0 := by cases last <;> rfl
    split
    · rename_i none_run
      rw [kind, inflateBody, if_pos rfl, body] at none_run
      contradiction
    · rename_i result afterBody run
      rw [kind, inflateBody, if_pos rfl, body] at run
      simp only [Option.some.injEq, Prod.mk.injEq] at run
      obtain ⟨result_eq, rest_eq⟩ := run
      subst result_eq rest_eq
      cases last <;> rfl

theorem inflateBlocks_storedBlocks (bytes : List UInt8) (output : Array UInt8)
    (rest : List UInt8) :
    ∃ result : Array UInt8, result.toList = output.toList ++ bytes ∧
      inflateBlocks output (bitsOf (storedBlocks bytes ++ rest)) = some (result, bitsOf rest) := by
  induction bytes using storedBlocks.induct generalizing output with
  | case1 bytes fits =>
      rw [storedBlocks, if_pos fits, inflateBlocks_block fits]
      exact ⟨_, toList_foldl_push output bytes, rfl⟩
  | case2 bytes long inductionHypothesis =>
      have fits : (bytes.take storedLimit).length ≤ storedLimit := List.length_take_le _ _
      obtain ⟨result, whole, run⟩ :=
        inductionHypothesis ((bytes.take storedLimit).foldl Array.push output)
      refine ⟨result, ?_, ?_⟩
      · rw [whole, toList_foldl_push, List.append_assoc, List.take_append_drop]
      · rw [storedBlocks, if_neg long, List.append_assoc, inflateBlocks_block fits]
        exact run

/-! ## Streams -/

theorem decompress?_compress (bytes : List UInt8) : decompress? (compress bytes) = some bytes := by
  obtain ⟨result, whole, run⟩ :=
    inflateBlocks_storedBlocks bytes #[] (bigEndian (adler32 bytes))
  have checksum : takeBytes? 4 (alignToByte (bitsOf (bigEndian (adler32 bytes)))) =
      some (bigEndian (adler32 bytes), []) := by
    have read := takeBytes?_bitsOf (bigEndian (adler32 bytes)) []
    rw [List.append_nil] at read
    rw [alignToByte_bitsOf]
    exact read
  have content : result.toList = bytes := whole
  rw [compress, List.cons_append, List.cons_append, decompress?, if_pos (by decide), run,
    Option.bind_some]
  simp only [checksum, Option.bind_some, content, if_true]

end SchemaTree.Zlib
