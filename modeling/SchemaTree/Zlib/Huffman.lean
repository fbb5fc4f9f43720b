import SchemaTree.Power
import SchemaTree.Zlib.Bits

/-!
Canonical prefix codes.  A code is given by the length of each symbol's word, zero for a symbol
without one; words of one length are consecutive numbers in the order of their symbols, and
shorter words come first.
-/

namespace SchemaTree.Zlib

/-- A canonical code. -/
structure HuffmanCode where
  /-- How many words have one bit, two bits, and so on. -/
  counts : List Nat
  /-- The symbols in the order of their words. -/
  symbols : List Nat

namespace HuffmanCode

def maxLength : Nat := 15

/-- The share of all words of the longest length that start with a word of a code. -/
def weight : List Nat → Nat
  | [] =>
      0
  | length :: lengths =>
      (if length = 0 then 0 else twoTo (maxLength - length)) + weight lengths

/-- Whether the lengths of a code's words are accepted.  Words must cover all bit strings exactly
once; only a code without words, and a code whose one word is a single bit, may leave strings
uncovered. -/
def isAccepted (lengths : List Nat) : Bool :=
  let used := lengths.filter (· ≠ 0)
  weight lengths = twoTo maxLength || used = [] || used = [1]

/-- The code of given lengths, if they are accepted. -/
def ofLengths? (lengths : List Nat) : Option HuffmanCode :=
  if isAccepted lengths then
    let wordLengths := (List.range maxLength).map (· + 1)
    some {
      counts := wordLengths.map fun length => lengths.count length
      symbols := wordLengths.flatMap fun length =>
        (lengths.zipIdx.filter fun entry => entry.1 = length).map Prod.snd }
  else none

/-- Reads one word.  `offset` is the number read so far, less the first word of its length; if it
is not among the words of that length, a further bit is read. -/
def decodeWord : List Nat → List Nat → Nat → List Bool → Option (Nat × List Bool)
  | [], _, _, _ =>
      none
  | _ :: _, _, _, [] =>
      none
  | count :: counts, symbols, offset, bit :: bits =>
      let offset := 2 * offset + bit.toNat
      if offset < count then symbols[offset]?.map fun symbol => (symbol, bits)
      else decodeWord counts (symbols.drop count) (offset - count) bits

def decode? (code : HuffmanCode) (bits : List Bool) : Option (Nat × List Bool) :=
  decodeWord code.counts code.symbols 0 bits

theorem length_of_decodeWord {counts symbols : List Nat} {offset symbol : Nat}
    {bits rest : List Bool} (read : decodeWord counts symbols offset bits = some (symbol, rest)) :
    rest.length < bits.length := by
  induction counts generalizing symbols offset bits with
  | nil => simp [decodeWord] at read
  | cons count counts inductionHypothesis =>
      cases bits with
      | nil => simp [decodeWord] at read
      | cons bit bits =>
          simp only [decodeWord] at read
          split at read
          · simp only [Option.map_eq_some_iff, Prod.mk.injEq] at read
            obtain ⟨_, _, _, rfl⟩ := read
            simp
          · have := inductionHypothesis read
            simp only [List.length_cons]
            omega

theorem length_of_decode? {code : HuffmanCode} {symbol : Nat} {bits rest : List Bool}
    (read : code.decode? bits = some (symbol, rest)) : rest.length < bits.length :=
  length_of_decodeWord read

end HuffmanCode

end SchemaTree.Zlib
