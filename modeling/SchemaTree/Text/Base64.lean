/-!
Base64 with the standard alphabet and padding.  Three bytes become four characters; a last group
of one or two bytes is filled with zero bits and padded with `=`.  Reading accepts nothing else:
the padding is required, and the filling bits must be zero.
-/

namespace SchemaTree.Text.Base64

def symbol (value : Nat) : Char :=
  if value < 26 then Char.ofNat (65 + value)
  else if value < 52 then Char.ofNat (71 + value)
  else if value < 62 then Char.ofNat (value - 4)
  else if value = 62 then '+'
  else '/'

def symbolValue? (char : Char) : Option Nat :=
  let code := char.toNat
  if 65 ≤ code ∧ code ≤ 90 then some (code - 65)
  else if 97 ≤ code ∧ code ≤ 122 then some (code - 71)
  else if 48 ≤ code ∧ code ≤ 57 then some (code + 4)
  else if char = '+' then some 62
  else if char = '/' then some 63
  else none

def encode : List UInt8 → List Char
  | [] =>
      []
  | [first] =>
      let bits := first.toNat * 16
      [symbol (bits / 64), symbol (bits % 64), '=', '=']
  | [first, second] =>
      let bits := (first.toNat * 256 + second.toNat) * 4
      [symbol (bits / 4096), symbol (bits / 64 % 64), symbol (bits % 64), '=']
  | first :: second :: third :: rest =>
      let bits := (first.toNat * 256 + second.toNat) * 256 + third.toNat
      symbol (bits / 262144) :: symbol (bits / 4096 % 64) :: symbol (bits / 64 % 64)
        :: symbol (bits % 64) :: encode rest

/-- The number whose digits to the base of 64 are given by characters. -/
def groupValue? (chars : List Char) : Option Nat :=
  chars.foldl (fun value? char =>
    value?.bind fun value => (symbolValue? char).map fun digit => value * 64 + digit) (some 0)

/-- The bytes of a last group, which may be padded. -/
def lastGroup? (first second third fourth : Char) : Option (List UInt8) :=
  if fourth = '=' then
    if third = '=' then
      (groupValue? [first, second]).bind fun bits =>
        if bits % 16 = 0 then some [UInt8.ofNat (bits / 16)] else none
    else
      (groupValue? [first, second, third]).bind fun bits =>
        if bits % 4 = 0 then some [UInt8.ofNat (bits / 1024), UInt8.ofNat (bits / 4)] else none
  else
    (groupValue? [first, second, third, fourth]).map fun bits =>
      [UInt8.ofNat (bits / 65536), UInt8.ofNat (bits / 256), UInt8.ofNat bits]

def decode? : List Char → Option (List UInt8)
  | [] =>
      some []
  | [first, second, third, fourth] =>
      lastGroup? first second third fourth
  | first :: second :: third :: fourth :: rest =>
      (groupValue? [first, second, third, fourth]).bind fun bits =>
        (decode? rest).map fun bytes =>
          UInt8.ofNat (bits / 65536) :: UInt8.ofNat (bits / 256) :: UInt8.ofNat bits :: bytes
  | _ =>
      none

end SchemaTree.Text.Base64
