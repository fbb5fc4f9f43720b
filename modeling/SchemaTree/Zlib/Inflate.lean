import SchemaTree.Zlib.Huffman

/-!
Decompression of a bit stream: blocks of stored bytes, or of literals and copies of earlier output
under a fixed code or under codes that the block brings along.
-/

namespace SchemaTree.Zlib

/-- One step of a coded block. -/
inductive Item where
  | literal (byte : UInt8)
  | endOfBlock
  | copy (distance length : Nat)

/-- Smallest copy length and number of extra bits of each length symbol, from 257 on. -/
def lengthTable : List (Nat × Nat) :=
  [(3, 0), (4, 0), (5, 0), (6, 0), (7, 0), (8, 0), (9, 0), (10, 0), (11, 1), (13, 1), (15, 1),
    (17, 1), (19, 2), (23, 2), (27, 2), (31, 2), (35, 3), (43, 3), (51, 3), (59, 3), (67, 4),
    (83, 4), (99, 4), (115, 4), (131, 5), (163, 5), (195, 5), (227, 5), (258, 0)]

/-- Smallest distance and number of extra bits of each distance symbol. -/
def distanceTable : List (Nat × Nat) :=
  [(1, 0), (2, 0), (3, 0), (4, 0), (5, 1), (7, 1), (9, 2), (13, 2), (17, 3), (25, 3), (33, 4),
    (49, 4), (65, 5), (97, 5), (129, 6), (193, 6), (257, 7), (385, 7), (513, 8), (769, 8),
    (1025, 9), (1537, 9), (2049, 10), (3073, 10), (4097, 11), (6145, 11), (8193, 12),
    (12289, 12), (16385, 13), (24577, 13)]

/-- A number given by a symbol of a table and the extra bits after it. -/
def takeExtra? (table : List (Nat × Nat)) (symbol : Nat) (bits : List Bool) :
    Option (Nat × List Bool) :=
  table[symbol]?.bind fun (base, width) =>
    (takeBits? width bits).map fun (extra, rest) => (base + extra, rest)

def takeItem? (literals distances : HuffmanCode) (bits : List Bool) :
    Option (Item × List Bool) :=
  (literals.decode? bits).bind fun (symbol, rest) =>
    if symbol < 256 then some (.literal (UInt8.ofNat symbol), rest)
    else if symbol = 256 then some (.endOfBlock, rest)
    else (takeExtra? lengthTable (symbol - 257) rest).bind fun (length, rest) =>
      (distances.decode? rest).bind fun (symbol, rest) =>
        (takeExtra? distanceTable symbol rest).map fun (distance, rest) =>
          (.copy distance length, rest)

theorem length_of_takeExtra? {table : List (Nat × Nat)} {symbol value : Nat}
    {bits rest : List Bool} (taken : takeExtra? table symbol bits = some (value, rest)) :
    rest.length ≤ bits.length := by
  simp only [takeExtra?, Option.bind_eq_some_iff, Option.map_eq_some_iff, Prod.mk.injEq] at taken
  obtain ⟨⟨base, width⟩, _, ⟨extra, after⟩, read, _, same⟩ := taken
  have shorter := length_of_takeBits? read
  dsimp only at same
  rw [← same]
  omega

theorem length_of_takeItem? {literals distances : HuffmanCode} {item : Item}
    {bits rest : List Bool} (taken : takeItem? literals distances bits = some (item, rest)) :
    rest.length < bits.length := by
  simp only [takeItem?, Option.bind_eq_some_iff] at taken
  obtain ⟨⟨symbol, afterWord⟩, word, taken⟩ := taken
  have wordShorter := HuffmanCode.length_of_decode? word
  simp only at taken
  split at taken
  · simp only [Option.some.injEq, Prod.mk.injEq] at taken
    exact taken.2 ▸ wordShorter
  · split at taken
    · simp only [Option.some.injEq, Prod.mk.injEq] at taken
      exact taken.2 ▸ wordShorter
    · simp only [Option.bind_eq_some_iff, Option.map_eq_some_iff, Prod.mk.injEq] at taken
      obtain ⟨⟨_, _⟩, length, ⟨_, _⟩, distanceWord, ⟨_, _⟩, distance, _, same⟩ := taken
      have afterLength := length_of_takeExtra? length
      have afterWord := HuffmanCode.length_of_decode? distanceWord
      have afterDistance := length_of_takeExtra? distance
      dsimp only at same afterWord afterDistance
      rw [← same]
      omega

/-- The byte at a distance back from the end; before the start there are zeros. -/
def byteBack (output : Array UInt8) (distance : Nat) : UInt8 :=
  if distance ≤ output.size then output.getD (output.size - distance) 0 else 0

/-- Appends bytes that start a distance back; they may run into the copy itself. -/
def copyBack (output : Array UInt8) (distance : Nat) : Nat → Array UInt8
  | 0 =>
      output
  | length + 1 =>
      copyBack (output.push (byteBack output distance)) distance length

def inflateItems (literals distances : HuffmanCode) (output : Array UInt8) (bits : List Bool) :
    Option (Array UInt8 × List Bool) :=
  match taken : takeItem? literals distances bits with
  | none => none
  | some (.endOfBlock, rest) => some (output, rest)
  | some (.literal byte, rest) =>
      have := length_of_takeItem? taken
      inflateItems literals distances (output.push byte) rest
  | some (.copy distance length, rest) =>
      have := length_of_takeItem? taken
      inflateItems literals distances (copyBack output distance length) rest
  termination_by bits.length

def fixedLiteralLengths : List Nat :=
  List.replicate 144 8 ++ List.replicate 112 9 ++ List.replicate 24 7 ++ List.replicate 8 8

def fixedDistanceLengths : List Nat :=
  List.replicate 32 5

/-- The order in which a block lists the lengths of the code for code lengths. -/
def lengthCodeOrder : List Nat :=
  [16, 17, 18, 0, 8, 7, 9, 6, 10, 5, 11, 4, 12, 3, 13, 2, 14, 1, 15]

def takeTriples? : Nat → List Bool → Option (List Nat × List Bool)
  | 0, bits =>
      some ([], bits)
  | count + 1, bits =>
      (takeBits? 3 bits).bind fun (value, rest) =>
        (takeTriples? count rest).map fun (values, rest) => (value :: values, rest)

/-- Code lengths in reverse, until there are `total`: a symbol below 16 is a length, 16 repeats
the last one, 17 and 18 repeat zero. -/
def takeLengths? (code : HuffmanCode) (total : Nat) (reversed : List Nat) (bits : List Bool) :
    Option (List Nat × List Bool) :=
  if total ≤ reversed.length then
    if reversed.length = total then some (reversed.reverse, bits) else none
  else
    match read : code.decode? bits with
    | none => none
    | some (symbol, rest) =>
        have := HuffmanCode.length_of_decode? read
        if symbol < 16 then takeLengths? code total (symbol :: reversed) rest
        else
          let (width, least) := if symbol = 16 then (2, 3) else if symbol = 17 then (3, 3)
            else (7, 11)
          let repeated? := if symbol = 16 then reversed.head? else some 0
          match repeated?, extra : takeBits? width rest with
          | some repeated, some (count, rest) =>
              have := length_of_takeBits? extra
              takeLengths? code total (List.replicate (least + count) repeated ++ reversed) rest
          | _, _ => none
  termination_by bits.length

def takeCodes? (bits : List Bool) : Option ((HuffmanCode × HuffmanCode) × List Bool) := do
  let (literalExtra, bits) ← takeBits? 5 bits
  let (distanceExtra, bits) ← takeBits? 5 bits
  let (lengthExtra, bits) ← takeBits? 4 bits
  let literalCount := literalExtra + 257
  let distanceCount := distanceExtra + 1
  if literalCount ≤ 286 ∧ distanceCount ≤ 30 then
    let (triples, bits) ← takeTriples? (lengthExtra + 4) bits
    let listed := lengthCodeOrder.zip triples
    let lengthCode ← HuffmanCode.ofLengths? <|
      (List.range 19).map fun symbol => (listed.lookup symbol).getD 0
    let (lengths, bits) ← takeLengths? lengthCode (literalCount + distanceCount) [] bits
    let literals ← HuffmanCode.ofLengths? (lengths.take literalCount)
    let distances ← HuffmanCode.ofLengths? (lengths.drop literalCount)
    some ((literals, distances), bits)
  else none

/-- A block of stored bytes: their number, its complement, and the bytes. -/
def inflateStored (output : Array UInt8) (bits : List Bool) : Option (Array UInt8 × List Bool) :=
  (takeBits? 16 (alignToByte bits)).bind fun (count, bits) =>
    (takeBits? 16 bits).bind fun (complement, bits) =>
      if count + complement = 65535 then
        (takeBytes? count bits).map fun (bytes, rest) => (bytes.foldl Array.push output, rest)
      else none

/-- Runs one block after its header, which gives its kind. -/
def inflateBody (kind : Nat) (output : Array UInt8) (bits : List Bool) :
    Option (Array UInt8 × List Bool) :=
  if kind = 0 then inflateStored output bits
  else if kind = 1 then do
    let literals ← HuffmanCode.ofLengths? fixedLiteralLengths
    let distances ← HuffmanCode.ofLengths? fixedDistanceLengths
    inflateItems literals distances output bits
  else if kind = 2 then do
    let ((literals, distances), bits) ← takeCodes? bits
    inflateItems literals distances output bits
  else none

end SchemaTree.Zlib
