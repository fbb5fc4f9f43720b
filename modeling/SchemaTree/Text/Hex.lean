/-!
Bytes in hexadecimal: two digits a byte, the high half first, written in lower case and read in
either case.
-/

namespace SchemaTree.Text.Hex

/-- The lower-case digit of a number below sixteen. -/
def digit (value : Nat) : Char :=
  if value < 10 then Char.ofNat (48 + value) else Char.ofNat (87 + value)

def digitValue? (char : Char) : Option Nat :=
  let code := char.toNat
  if 48 ≤ code ∧ code ≤ 57 then some (code - 48)
  else if 97 ≤ code ∧ code ≤ 102 then some (code - 87)
  else if 65 ≤ code ∧ code ≤ 70 then some (code - 55)
  else none

def encode (bytes : List UInt8) : List Char :=
  bytes.flatMap fun byte => [digit (byte.toNat / 16), digit (byte.toNat % 16)]

def byte? (high low : Char) : Option UInt8 :=
  (digitValue? high).bind fun high =>
    (digitValue? low).map fun low => UInt8.ofNat (16 * high + low)

def decode? : List Char → Option (List UInt8)
  | [] =>
      some []
  | [_] =>
      none
  | high :: low :: rest =>
      (byte? high low).bind fun byte => (decode? rest).map fun bytes => byte :: bytes

theorem digitValue?_digit (value : Nat) (small : value < 16) :
    digitValue? (digit value) = some value := by
  have cases : ∀ value : Fin 16, digitValue? (digit value.val) = some value.val := by decide
  exact cases ⟨value, small⟩

/-- The digits of a byte read back as the byte. -/
theorem byte?_digits (byte : UInt8) :
    byte? (digit (byte.toNat / 16)) (digit (byte.toNat % 16)) = some byte := by
  have small := byte.toNat_lt
  have whole : 16 * (byte.toNat / 16) + byte.toNat % 16 = byte.toNat := by omega
  rw [byte?, digitValue?_digit _ (by omega), digitValue?_digit _ (by omega), Option.bind_some,
    Option.map_some, whole, UInt8.ofNat_toNat]

theorem decode?_encode (bytes : List UInt8) : decode? (encode bytes) = some bytes := by
  induction bytes with
  | nil => rfl
  | cons byte rest inductionHypothesis =>
      rw [encode] at inductionHypothesis
      simp [encode, decode?, byte?_digits, inductionHypothesis]

end SchemaTree.Text.Hex
