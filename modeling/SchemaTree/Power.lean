/-!
Powers of two and of ten, the scales of binary and of decimal numbers.
-/

namespace SchemaTree

def twoTo (exponent : Nat) : Nat :=
  Nat.pow 2 exponent

def tenTo (exponent : Nat) : Nat :=
  Nat.pow 10 exponent

theorem twoTo_pos (exponent : Nat) : 0 < twoTo exponent :=
  Nat.pow_pos (by decide)

theorem tenTo_pos (exponent : Nat) : 0 < tenTo exponent :=
  Nat.pow_pos (by decide)

theorem twoTo_add (first second : Nat) :
    twoTo (first + second) = twoTo first * twoTo second :=
  Nat.pow_add 2 first second

theorem tenTo_add (first second : Nat) :
    tenTo (first + second) = tenTo first * tenTo second :=
  Nat.pow_add 10 first second

end SchemaTree
