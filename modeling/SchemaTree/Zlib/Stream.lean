import SchemaTree.Zlib.Inflate

/-!
Compressed streams: a header of two bytes, blocks, and the checksum of the content.  What follows
the checksum is ignored.  Writing stores the content in blocks as it is.
-/

namespace SchemaTree.Zlib

theorem length_of_inflateItems {literals distances : HuffmanCode} {output result : Array UInt8}
    {bits rest : List Bool}
    (run : inflateItems literals distances output bits = some (result, rest)) :
    rest.length ≤ bits.length := by
  fun_induction inflateItems literals distances output bits with
  | case1 output bits taken => simp at run
  | case2 output bits rest' taken =>
      simp only [Option.some.injEq, Prod.mk.injEq] at run
      have shorter := length_of_takeItem? taken
      rw [← run.2]
      omega
  | case3 output bits byte rest' taken shorter inductionHypothesis =>
      have := inductionHypothesis run
      omega
  | case4 output bits distance length rest' taken shorter inductionHypothesis =>
      have := inductionHypothesis run
      omega

theorem length_of_takeTriples? {count : Nat} {values : List Nat} {bits rest : List Bool}
    (taken : takeTriples? count bits = some (values, rest)) : rest.length ≤ bits.length := by
  induction count generalizing bits values rest with
  | zero =>
      simp only [takeTriples?, Option.some.injEq, Prod.mk.injEq] at taken
      simp [taken.2]
  | succ count inductionHypothesis =>
      simp only [takeTriples?, Option.bind_eq_some_iff, Option.map_eq_some_iff,
        Prod.mk.injEq] at taken
      obtain ⟨⟨value, after⟩, read, ⟨inner, remaining⟩, others, -, same⟩ := taken
      have first := length_of_takeBits? read
      have following := inductionHypothesis others
      dsimp only at following same
      rw [← same]
      omega

theorem length_of_takeLengths? {code : HuffmanCode} {total : Nat} {reversed lengths : List Nat}
    {bits rest : List Bool} (taken : takeLengths? code total reversed bits = some (lengths, rest)) :
    rest.length ≤ bits.length := by
  fun_induction takeLengths? code total reversed bits with
  | case1 reversed bits enough exact =>
      simp only [Option.some.injEq, Prod.mk.injEq] at taken
      simp [taken.2]
  | case2 reversed bits enough beyond => simp at taken
  | case3 reversed bits few read => simp at taken
  | case4 reversed bits few symbol rest' read shorter plain inductionHypothesis =>
      have := inductionHypothesis taken
      omega
  | case5 reversed bits few symbol rest' read shorter special width least chosen repeated
      repeats count rest'' extra choice shorterExtra inductionHypothesis =>
      have := inductionHypothesis taken
      omega
  | case6 => simp at taken

theorem length_of_inflateStored {output result : Array UInt8} {bits rest : List Bool}
    (run : inflateStored output bits = some (result, rest)) : rest.length ≤ bits.length := by
  simp only [inflateStored, Option.bind_eq_some_iff] at run
  obtain ⟨⟨count, afterCount⟩, countRead, ⟨complement, afterComplement⟩, complementRead, run⟩ := run
  dsimp only at complementRead run
  split at run
  · simp only [Option.map_eq_some_iff, Prod.mk.injEq] at run
    obtain ⟨⟨bytes, afterBytes⟩, bytesRead, -, same⟩ := run
    have first := length_of_takeBits? countRead
    have second := length_of_takeBits? complementRead
    have third := length_of_takeBytes? bytesRead
    dsimp only at same
    rw [← same]
    simp only [alignToByte, List.length_drop] at first
    omega
  · simp at run

theorem length_of_takeCodes? {codes : HuffmanCode × HuffmanCode} {bits rest : List Bool}
    (taken : takeCodes? bits = some (codes, rest)) : rest.length ≤ bits.length := by
  simp only [takeCodes?, bind, Option.bind_eq_some_iff] at taken
  obtain ⟨⟨_, _⟩, literalRead, ⟨_, _⟩, distanceRead, ⟨_, _⟩, lengthRead, taken⟩ := taken
  dsimp only at distanceRead lengthRead taken
  split at taken
  · simp only [Option.bind_eq_some_iff, Option.some.injEq, Prod.mk.injEq] at taken
    obtain ⟨⟨_, _⟩, triplesRead, _, _, ⟨_, _⟩, lengthsRead, _, _, _, _, -, same⟩ := taken
    have first := length_of_takeBits? literalRead
    have second := length_of_takeBits? distanceRead
    have third := length_of_takeBits? lengthRead
    have fourth := length_of_takeTriples? triplesRead
    have fifth := length_of_takeLengths? lengthsRead
    dsimp only at fourth fifth same
    rw [← same]
    omega
  · simp at taken

theorem length_of_inflateBody {kind : Nat} {output result : Array UInt8} {bits rest : List Bool}
    (run : inflateBody kind output bits = some (result, rest)) : rest.length ≤ bits.length := by
  unfold inflateBody at run
  split at run
  · exact length_of_inflateStored run
  · split at run
    · simp only [bind, Option.bind_eq_some_iff] at run
      obtain ⟨_, _, _, _, run⟩ := run
      exact length_of_inflateItems run
    · split at run
      · simp only [bind, Option.bind_eq_some_iff] at run
        obtain ⟨⟨⟨_, _⟩, _⟩, codesRead, run⟩ := run
        have first := length_of_takeCodes? codesRead
        have second := length_of_inflateItems run
        dsimp only at second
        omega
      · simp at run

/-- Runs blocks up to the one marked as the last. -/
def inflateBlocks (output : Array UInt8) (bits : List Bool) :
    Option (Array UInt8 × List Bool) :=
  match header : takeBits? 3 bits with
  | none => none
  | some (value, rest) =>
      match body : inflateBody (value / 2) output rest with
      | none => none
      | some (output, rest) =>
          have := length_of_takeBits? header
          have := length_of_inflateBody body
          if value % 2 = 1 then some (output, rest) else inflateBlocks output rest
  termination_by bits.length

/-- The checksum of bytes: their sum, and the sum of all partial sums, modulo 65521. -/
def adler32 (bytes : List UInt8) : Nat :=
  let (first, second) := bytes.foldl (fun (first, second) byte =>
    let first := (first + byte.toNat) % 65521
    (first, (second + first) % 65521)) (1, 0)
  second * 65536 + first

/-- The four bytes of a number, the highest first. -/
def bigEndian (value : Nat) : List UInt8 :=
  [UInt8.ofNat (value / 16777216), UInt8.ofNat (value / 65536), UInt8.ofNat (value / 256),
    UInt8.ofNat value]

/-- Whether two bytes announce blocks with a window of at most 32 kilobytes and no preset
dictionary. -/
def isHeader (method flags : UInt8) : Bool :=
  method.toNat % 16 = 8 && method.toNat / 16 ≤ 7 && (method.toNat * 256 + flags.toNat) % 31 = 0
    && flags.toNat / 32 % 2 = 0

def decompress? : List UInt8 → Option (List UInt8)
  | method :: flags :: body =>
      if isHeader method flags then
        (inflateBlocks #[] (bitsOf body)).bind fun (output, rest) =>
          (takeBytes? 4 (alignToByte rest)).bind fun (checksum, _) =>
            if checksum = bigEndian (adler32 output.toList) then some output.toList else none
      else none
  | _ => none

def storedLimit : Nat := 65535

def storedBlock (last : Bool) (bytes : List UInt8) : List UInt8 :=
  let complement := 65535 - bytes.length
  [if last then 1 else 0, UInt8.ofNat bytes.length, UInt8.ofNat (bytes.length / 256),
    UInt8.ofNat complement, UInt8.ofNat (complement / 256)] ++ bytes

def storedBlocks (bytes : List UInt8) : List UInt8 :=
  if bytes.length ≤ storedLimit then storedBlock true bytes
  else storedBlock false (bytes.take storedLimit) ++ storedBlocks (bytes.drop storedLimit)
  termination_by bytes.length
  decreasing_by
    simp only [List.length_drop, storedLimit] at *
    omega

def compress (bytes : List UInt8) : List UInt8 :=
  0x78 :: 0x01 :: storedBlocks bytes ++ bigEndian (adler32 bytes)

end SchemaTree.Zlib
