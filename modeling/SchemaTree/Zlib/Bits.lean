/-!
Bit streams: the bits of bytes, each byte from its lowest bit up, and numbers read from them.
-/

namespace SchemaTree.Zlib

def byteBits (byte : UInt8) : List Bool :=
  (List.range 8).map byte.toNat.testBit

def bitsOf (bytes : List UInt8) : List Bool :=
  bytes.flatMap byteBits

/-- The number of a given width at the head of a stream, lowest bit first, and the rest. -/
def takeBits? : Nat → List Bool → Option (Nat × List Bool)
  | 0, bits =>
      some (0, bits)
  | _ + 1, [] =>
      none
  | width + 1, bit :: bits =>
      (takeBits? width bits).map fun (value, rest) => (bit.toNat + 2 * value, rest)

/-- A number of bytes at the head of a stream, and the rest. -/
def takeBytes? : Nat → List Bool → Option (List UInt8 × List Bool)
  | 0, bits =>
      some ([], bits)
  | count + 1, bits =>
      (takeBits? 8 bits).bind fun (value, rest) =>
        (takeBytes? count rest).map fun (bytes, rest) => (UInt8.ofNat value :: bytes, rest)

/-- Drops what is left of a byte that has been read in part.  A stream of whole bytes has a
multiple of eight bits, so the count of bits left tells how many these are. -/
def alignToByte (bits : List Bool) : List Bool :=
  bits.drop (bits.length % 8)

theorem length_of_takeBits? {width value : Nat} {bits rest : List Bool}
    (taken : takeBits? width bits = some (value, rest)) :
    rest.length + width = bits.length := by
  induction width generalizing bits value rest with
  | zero =>
      simp only [takeBits?, Option.some.injEq, Prod.mk.injEq] at taken
      simp [taken.2]
  | succ width inductionHypothesis =>
      cases bits with
      | nil => simp [takeBits?] at taken
      | cons bit bits =>
          simp only [takeBits?, Option.map_eq_some_iff, Prod.mk.injEq] at taken
          obtain ⟨⟨inner, remaining⟩, read, -, same⟩ := taken
          have shorter := inductionHypothesis read
          rw [← same, List.length_cons]
          dsimp only
          omega

theorem length_of_takeBytes? {count : Nat} {bytes : List UInt8} {bits rest : List Bool}
    (taken : takeBytes? count bits = some (bytes, rest)) :
    rest.length + 8 * count = bits.length := by
  induction count generalizing bits bytes rest with
  | zero =>
      simp only [takeBytes?, Option.some.injEq, Prod.mk.injEq] at taken
      simp [taken.2]
  | succ count inductionHypothesis =>
      simp only [takeBytes?, Option.bind_eq_some_iff, Option.map_eq_some_iff,
        Prod.mk.injEq] at taken
      obtain ⟨⟨value, after⟩, read, ⟨inner, remaining⟩, others, -, same⟩ := taken
      have first := length_of_takeBits? read
      have following := inductionHypothesis others
      rw [← same]
      dsimp only at following ⊢
      omega

end SchemaTree.Zlib
