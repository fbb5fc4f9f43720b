import SchemaTree.Text.Base64

/-!
Bytes written in base 64 read back: group by group, with the padding of the last one.
-/

namespace SchemaTree.Text.Base64

theorem symbolValue?_symbol {value : Nat} (small : value < 64) :
    symbolValue? (symbol value) = some value := by
  have cases : ∀ value : Fin 64, symbolValue? (symbol value.val) = some value.val := by decide
  exact cases ⟨value, small⟩

theorem symbol_ne_padding {value : Nat} (small : value < 64) : symbol value ≠ '=' := by
  have cases : ∀ value : Fin 64, symbol value.val ≠ '=' := by decide
  exact cases ⟨value, small⟩

theorem ofNat_eq_of_mod {value : Nat} {byte : UInt8} (same : value % 256 = byte.toNat) :
    UInt8.ofNat value = byte := by
  apply UInt8.toNat_inj.mp
  rw [UInt8.toNat_ofNat']
  exact same

theorem groupValue?_pair {first second : Nat} (firstSmall : first < 64)
    (secondSmall : second < 64) :
    groupValue? [symbol first, symbol second] = some (first * 64 + second) := by
  simp only [groupValue?, List.foldl_cons, List.foldl_nil, Option.bind_some,
    symbolValue?_symbol firstSmall, symbolValue?_symbol secondSmall, Option.map_some,
    Nat.zero_mul, Nat.zero_add]

theorem groupValue?_triple {first second third : Nat} (firstSmall : first < 64)
    (secondSmall : second < 64) (thirdSmall : third < 64) :
    groupValue? [symbol first, symbol second, symbol third] =
      some ((first * 64 + second) * 64 + third) := by
  simp only [groupValue?, List.foldl_cons, List.foldl_nil, Option.bind_some,
    symbolValue?_symbol firstSmall, symbolValue?_symbol secondSmall,
    symbolValue?_symbol thirdSmall, Option.map_some, Nat.zero_mul, Nat.zero_add]

theorem groupValue?_quadruple {first second third fourth : Nat} (firstSmall : first < 64)
    (secondSmall : second < 64) (thirdSmall : third < 64) (fourthSmall : fourth < 64) :
    groupValue? [symbol first, symbol second, symbol third, symbol fourth] =
      some (((first * 64 + second) * 64 + third) * 64 + fourth) := by
  simp only [groupValue?, List.foldl_cons, List.foldl_nil, Option.bind_some,
    symbolValue?_symbol firstSmall, symbolValue?_symbol secondSmall,
    symbolValue?_symbol thirdSmall, symbolValue?_symbol fourthSmall, Option.map_some,
    Nat.zero_mul, Nat.zero_add]

theorem decode?_encode_single (first : UInt8) : decode? (encode [first]) = some [first] := by
  have small := first.toNat_lt
  have group := @groupValue?_pair (first.toNat * 16 / 64) (first.toNat * 16 % 64) (by omega)
    (by omega)
  rw [show first.toNat * 16 / 64 * 64 + first.toNat * 16 % 64 = first.toNat * 16 by omega]
    at group
  simp only [encode, decode?, lastGroup?, if_true, group, Option.bind_some,
    Nat.mul_mod_left, Nat.mul_div_cancel _ (show 0 < 16 by decide), UInt8.ofNat_toNat]

theorem decode?_encode_pair (first second : UInt8) :
    decode? (encode [first, second]) = some [first, second] := by
  have firstSmall := first.toNat_lt
  have secondSmall := second.toNat_lt
  generalize bits_eq : (first.toNat * 256 + second.toNat) * 4 = bits
  have group := @groupValue?_triple (bits / 4096) (bits / 64 % 64) (bits % 64) (by omega)
    (by omega) (by omega)
  rw [show (bits / 4096 * 64 + bits / 64 % 64) * 64 + bits % 64 = bits by omega] at group
  have padding : symbol (bits % 64) ≠ '=' := symbol_ne_padding (by omega)
  have high : UInt8.ofNat (bits / 1024) = first := ofNat_eq_of_mod (by omega)
  have low : UInt8.ofNat (bits / 4) = second := ofNat_eq_of_mod (by omega)
  simp only [encode, decode?, lastGroup?, bits_eq, padding, if_true, if_false, group,
    Option.bind_some, show bits % 4 = 0 by omega, high, low]

/-- The four symbols of three bytes have the number of the bytes for their value, which gives the
bytes back. -/
theorem group_of_bytes (first second third : UInt8) {bits : Nat}
    (value : bits = (first.toNat * 256 + second.toNat) * 256 + third.toNat) :
    groupValue? [symbol (bits / 262144), symbol (bits / 4096 % 64), symbol (bits / 64 % 64),
        symbol (bits % 64)] = some bits ∧
      UInt8.ofNat (bits / 65536) = first ∧ UInt8.ofNat (bits / 256) = second ∧
      UInt8.ofNat bits = third := by
  have firstSmall := first.toNat_lt
  have secondSmall := second.toNat_lt
  have thirdSmall := third.toNat_lt
  refine ⟨?_, ofNat_eq_of_mod (by omega), ofNat_eq_of_mod (by omega), ofNat_eq_of_mod (by omega)⟩
  rw [groupValue?_quadruple (by omega) (by omega) (by omega) (by omega)]
  apply congrArg some
  omega

@[simp]
theorem decode?_encode (bytes : List UInt8) : decode? (encode bytes) = some bytes := by
  induction bytes using encode.induct with
  | case1 => rfl
  | case2 first => exact decode?_encode_single first
  | case3 first second => exact decode?_encode_pair first second
  | case4 first second third rest inductionHypothesis =>
      generalize bits_eq : (first.toNat * 256 + second.toNat) * 256 + third.toNat = bits
      obtain ⟨group, high, middle, low⟩ := group_of_bytes first second third bits_eq.symm
      have padding : symbol (bits % 64) ≠ '=' := symbol_ne_padding (by omega)
      rw [encode]
      simp only [bits_eq]
      cases written : encode rest with
      | nil =>
          -- Only the last group may be padded, and this one is not.
          rw [written] at inductionHypothesis
          have none_left : rest = [] := (Option.some.inj inductionHypothesis).symm
          simp only [decode?, lastGroup?, padding, if_false, group, Option.map_some, high, middle,
            low, none_left]
      | cons next others =>
          rw [written] at inductionHypothesis
          simp only [decode?, group, Option.bind_some, inductionHypothesis, Option.map_some, high,
            middle, low]

end SchemaTree.Text.Base64
