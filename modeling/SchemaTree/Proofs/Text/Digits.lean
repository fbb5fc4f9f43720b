import SchemaTree.Text.Digits

/-!
Decimal digits read back: natural numbers with and without leading zeros, integers, and integers
of 64 bits.
-/

namespace SchemaTree.Text

theorem isDigit_of_core {char : Char} (digit : char.isDigit = true) : isDigit char = true := by
  simp only [Char.isDigit, Bool.and_eq_true, decide_eq_true_eq, ge_iff_le,
    UInt32.le_iff_toNat_le] at digit
  simp only [isDigit, Bool.and_eq_true, decide_eq_true_eq]
  exact digit

theorem toList_showNat (value : Nat) : (showNat value).toList = Nat.toDigits 10 value :=
  Nat.toList_repr

theorem all_isDigit_showNat (value : Nat) : (showNat value).toList.all isDigit = true := by
  rw [toList_showNat, List.all_eq_true]
  intro char member
  exact isDigit_of_core (Nat.isDigit_of_mem_toDigits (by decide) (by decide) member)

theorem showNat_ne_nil (value : Nat) : (showNat value).toList ≠ [] := by
  rw [toList_showNat]
  exact Nat.toDigits_ne_nil

theorem digitsValue_showNat (value : Nat) : digitsValue (showNat value).toList = value := by
  rw [toList_showNat]
  exact Nat.ofDigitChars_ten_toDigits

theorem digitsValue_append (first second : List Char) :
    digitsValue (first ++ second) =
      tenTo second.length * digitsValue first + digitsValue second := by
  show Nat.ofDigitChars 10 (first ++ second) 0 = _
  rw [Nat.ofDigitChars_append, Nat.ofDigitChars_eq_ofDigitChars_zero]
  rfl

theorem digitsValue_padded (width value : Nat) : digitsValue (padded width value) = value := by
  show Nat.ofDigitChars 10 (List.replicate _ '0' ++ _) 0 = _
  rw [Nat.ofDigitChars_append, Nat.ofDigitChars_replicate_zero, Nat.mul_zero]
  exact digitsValue_showNat value

theorem all_isDigit_padded (width value : Nat) : (padded width value).all isDigit = true := by
  simp only [padded, List.all_append, all_isDigit_showNat, Bool.and_true, List.all_replicate]
  split <;> rfl

theorem length_padded {width value : Nat} (positive : 0 < width) (small : value < tenTo width) :
    (padded width value).length = width := by
  have fits : (showNat value).toList.length ≤ width := by
    rw [toList_showNat]
    exact (Nat.length_toDigits_le_iff (by decide) positive).mpr small
  simp only [padded, List.length_append, List.length_replicate]
  omega

theorem digitsValue_lt {digits : List Char} (digit : digits.all isDigit = true) :
    digitsValue digits < tenTo digits.length := by
  induction digits with
  | nil => exact tenTo_pos 0
  | cons first rest inductionHypothesis =>
      rw [List.all_cons, Bool.and_eq_true] at digit
      have least : digitsValue [first] ≤ 9 := by
        have bounds := digit.1
        simp only [isDigit, Bool.and_eq_true, decide_eq_true_eq] at bounds
        show 10 * 0 + (first.toNat - 48) ≤ 9
        omega
      have following := inductionHypothesis digit.2
      have scaled : tenTo rest.length * digitsValue [first] ≤ tenTo rest.length * 9 :=
        Nat.mul_le_mul_left _ least
      have whole : tenTo (rest.length + 1) = tenTo rest.length * 10 := tenTo_add _ 1
      rw [← List.singleton_append, digitsValue_append, List.singleton_append, List.length_cons,
        whole]
      omega

/-! ## Integers -/

theorem splitSign_of_digits {digits : List Char} (digit : digits.all isDigit = true) :
    splitSign digits = (false, digits) := by
  cases digits with
  | nil => rfl
  | cons first rest =>
      rw [List.all_cons, Bool.and_eq_true] at digit
      have firstDigit := digit.1
      unfold splitSign
      split
      · rename_i same
        injection same with same
        subst same
        exact absurd firstDigit (by decide)
      · rename_i same
        injection same with same
        subst same
        exact absurd firstDigit (by decide)
      · rfl

theorem readInt?_showNat (value : Nat) : readInt? (showNat value).toList = some (value : Int) := by
  have digit := all_isDigit_showNat value
  simp only [readInt?, splitSign_of_digits digit, digit, showNat_ne_nil, ne_eq, not_false_eq_true,
    and_self, if_true, digitsValue_showNat, Bool.false_eq_true, if_false]

theorem readInt?_showInt (value : Int) : readInt? (showInt value).toList = some value := by
  by_cases negative : 0 ≤ value
  · have shown : showInt value = showNat value.toNat := by
      rw [showInt, Int.toString_eq_repr, Int.repr_eq_if, if_pos negative]
      rfl
    rw [shown, readInt?_showNat, Int.toNat_of_nonneg negative]
  · have shown : (showInt value).toList = '-' :: (showNat (-value).toNat).toList := by
      rw [showInt, Int.toString_eq_repr, Int.repr_eq_if, if_neg negative, String.toList_append]
      rfl
    have digit := all_isDigit_showNat (-value).toNat
    have magnitude : ((-value).toNat : Int) = -value := Int.toNat_of_nonneg (by omega)
    simp only [shown, readInt?, splitSign, digit, showNat_ne_nil, ne_eq, not_false_eq_true,
      and_self, if_true, digitsValue_showNat, magnitude, Int.neg_neg]

theorem toInt64?_toInt (value : Int64) : toInt64? value.toInt = some value := by
  have lower := value.le_toInt
  have upper := value.toInt_lt
  rw [toInt64?, if_pos ⟨lower, upper⟩, Int64.ofInt_toInt]

@[simp]
theorem readInt64?_showInt (value : Int64) :
    readInt64? (showInt value.toInt).toList = some value := by
  rw [readInt64?, readInt?_showInt, Option.bind_some, toInt64?_toInt]

end SchemaTree.Text
