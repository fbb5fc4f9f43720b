import Mathlib.Data.Rat.Floor
import SchemaTree.Binary64.Reader
import SchemaTree.Proofs.Binary64.Truncation

/-!
The numbers that doubles stand for.  A finite double is a rational number; truncation takes the
fraction off that number, and a double is integral exactly if its number is an integer.  Two numbers
are always in order.  Rounding gives a number or an infinity, so a text that is read as no number
says so, and every text that is read keeps its sign.
-/

namespace SchemaTree

/-! ## Numbers without a fraction -/

/-- A number without its fraction. -/
def towardZero (number : ℚ) : ℤ :=
  if number < 0 then ⌈number⌉ else ⌊number⌋

theorem towardZero_intCast (whole : ℤ) : towardZero whole = whole := by
  unfold towardZero
  split
  · exact Int.ceil_intCast whole
  · exact Int.floor_intCast whole

theorem towardZero_neg (number : ℚ) : towardZero (-number) = -towardZero number := by
  unfold towardZero
  rcases lt_trichotomy number 0 with below | rfl | above
  · rw [if_neg (by linarith), if_pos below, Int.floor_neg]
  · simp
  · rw [if_pos (by linarith), if_neg (by linarith), Int.ceil_neg]

theorem towardZero_natCast_div (numerator denominator : ℕ) :
    towardZero (numerator / denominator) = (numerator / denominator : ℕ) := by
  rw [towardZero, if_neg (not_lt.mpr (by positivity)), Rat.floor_natCast_div_natCast]
  rfl

/-- A ratio of natural numbers is an integer, with either sign, exactly if it divides. -/
theorem exists_intCast_eq_div_iff {sign : ℚ} (isSign : sign = 1 ∨ sign = -1) {numerator : ℕ}
    {denominator : ℕ} (positive : 0 < denominator) :
    (∃ whole : ℤ, sign * (numerator / denominator) = whole) ↔ denominator ∣ numerator := by
  have unit : (denominator : ℚ) ≠ 0 := Nat.cast_ne_zero.mpr positive.ne'
  constructor
  · rintro ⟨whole, isWhole⟩
    rw [← mul_div_assoc, div_eq_iff unit] at isWhole
    rw [← Int.natCast_dvd_natCast]
    rcases isSign with rfl | rfl
    · exact ⟨whole, by exact_mod_cast (one_mul (numerator : ℚ) ▸ isWhole).trans (mul_comm _ _)⟩
    · refine ⟨-whole, ?_⟩
      have opposite : (numerator : ℚ) = denominator * (-whole : ℤ) := by
        push_cast
        linarith
      exact_mod_cast opposite
  · rintro ⟨whole, rfl⟩
    rw [Nat.cast_mul, mul_div_cancel_left₀ _ unit]
    rcases isSign with rfl | rfl
    · exact ⟨whole, by simp⟩
    · exact ⟨-whole, by simp⟩

namespace Binary64

/-! ## Finite doubles -/

/-- The number that a finite double stands for: its significand, scaled by a power of two, with its
sign. -/
def toRat (x : Binary64) : ℚ :=
  (if x.negative then -1 else 1) *
    ((x.significand * twoTo x.exponentStep : ℕ) / (twoTo 1074 : ℕ))

/-- Truncation takes the fraction off the number. -/
theorem truncate_eq_towardZero (x : Binary64) : x.truncate = towardZero x.toRat := by
  rw [truncate, toRat, wholePart_eq, stepsOf_magnitude]
  split
  · rw [neg_one_mul, towardZero_neg, towardZero_natCast_div]
  · rw [one_mul, towardZero_natCast_div]

/-- A double is integral exactly if its steps make up whole units. -/
theorem isIntegral_iff_dvd {x : Binary64} :
    x.isIntegral = true ↔
      x.isFinite = true ∧ twoTo 1074 ∣ x.significand * twoTo x.exponentStep := by
  rw [isIntegral, Bool.and_eq_true, Bool.or_eq_true, decide_eq_true_eq, decide_eq_true_eq]
  refine and_congr_right fun _ => ?_
  by_cases large : 1074 ≤ x.exponentStep
  · have split : twoTo x.exponentStep = twoTo (x.exponentStep - 1074) * twoTo 1074 := by
      rw [← twoTo_add, Nat.sub_add_cancel large]
    rw [split, ← Nat.mul_assoc]
    exact iff_of_true (.inl large) (Nat.dvd_mul_left _ _)
  · have split : twoTo 1074 = twoTo (1074 - x.exponentStep) * twoTo x.exponentStep := by
      rw [← twoTo_add, Nat.sub_add_cancel (by omega)]
    rw [split, Nat.mul_dvd_mul_iff_right (twoTo_pos _), or_iff_right large]
    exact Nat.dvd_iff_mod_eq_zero.symm

theorem isIntegral_iff {x : Binary64} :
    x.isIntegral = true ↔ x.isFinite = true ∧ ∃ whole : ℤ, x.toRat = whole := by
  have isSign : (if x.negative then -1 else 1 : ℚ) = 1 ∨
      (if x.negative then -1 else 1 : ℚ) = -1 := by
    split <;> simp
  rw [isIntegral_iff_dvd, toRat, exists_intCast_eq_div_iff isSign (twoTo_pos 1074)]

/-! ## Order -/

section Order

variable {first second : Binary64}

/-- Two numbers are ordered one way or the other. -/
theorem lt_eq_false_iff (firstNumber : first.isNaN = false) (secondNumber : second.isNaN = false) :
    first.lt second = false ↔ second.le first = true := by
  simp [lt, le, firstNumber, secondNumber]

/-- What is no number is in no order. -/
theorem not_le_of_isNaN (noNumber : first.isNaN = true) :
    ¬first.le second = true ∧ ¬second.le first = true := by
  simp [le, noNumber]

end Order

/-! ## What is no number -/

theorem isNaN_ofMagnitude {magnitude : Nat} (negative : Bool)
    (small : magnitude ≤ infinityMagnitude) : (ofMagnitude negative magnitude).isNaN = false := by
  have limit : infinityMagnitude < twoTo 63 := by decide
  rw [isNaN, magnitude_ofMagnitude negative (Nat.lt_of_le_of_lt small limit)]
  exact decide_eq_false (Nat.not_lt.mpr small)

theorem isNaN_ofMagnitude_nan (negative : Bool) :
    (ofMagnitude negative nanMagnitude).isNaN = true := by
  cases negative <;> decide

/-- Rounding a decimal gives a number or an infinity, with the sign of the decimal. -/
theorem exists_magnitude_ofDecimal (negative : Bool) (digits : Nat) (exponent : Int) :
    ∃ magnitude, magnitude ≤ infinityMagnitude ∧
      ofDecimal negative digits exponent = ofMagnitude negative magnitude := by
  unfold ofDecimal
  split_ifs
  · exact ⟨0, Nat.zero_le _, rfl⟩
  · exact ⟨infinityMagnitude, Nat.le_refl _, rfl⟩
  · exact ⟨0, Nat.zero_le _, rfl⟩
  · exact ⟨_, nearestMagnitude_le _ _, rfl⟩

/-! ## Texts -/

/-- Whether a text is `nan`, in letters of any case and with any sign. -/
def spellsNaN (text : List Char) : Bool :=
  (Text.splitSign text).2.map Char.toLower = "nan".toList

section Reader

variable {text : List Char} {double : Binary64}

/-- A text that reads as a double reads with its own sign, and as no number only if it says so. -/
theorem read?_cases (isRead : read? text = some double) :
    spellsNaN text = true ∧ double = ofMagnitude (Text.splitSign text).1 nanMagnitude ∨
      spellsNaN text = false ∧ ∃ magnitude, magnitude ≤ infinityMagnitude ∧
        double = ofMagnitude (Text.splitSign text).1 magnitude := by
  unfold read? at isRead
  unfold spellsNaN
  dsimp only at isRead
  split_ifs at isRead with isInfinity isNamed
  · right
    refine ⟨decide_eq_false ?_, infinityMagnitude, Nat.le_refl _, (Option.some.inj isRead).symm⟩
    rcases isInfinity with isWord | isWord <;> rw [isWord] <;> decide
  · exact .inl ⟨decide_eq_true isNamed, (Option.some.inj isRead).symm⟩
  · right
    refine ⟨decide_eq_false isNamed, ?_⟩
    unfold readDecimal? at isRead
    dsimp only at isRead
    split_ifs at isRead
    obtain ⟨exponent, _, rfl⟩ := Option.map_eq_some_iff.mp isRead
    exact exists_magnitude_ofDecimal _ _ _

theorem isNaN_of_read? (isRead : read? text = some double) : double.isNaN = spellsNaN text := by
  rcases read?_cases isRead with ⟨isNamed, rfl⟩ | ⟨notNamed, magnitude, small, rfl⟩
  · rw [isNamed, isNaN_ofMagnitude_nan]
  · rw [notNamed, isNaN_ofMagnitude _ small]

theorem negative_of_read? (isRead : read? text = some double) :
    double.negative = (Text.splitSign text).1 := by
  rcases read?_cases isRead with ⟨_, rfl⟩ | ⟨_, magnitude, small, rfl⟩
  · exact negative_ofMagnitude _ (by decide)
  · exact negative_ofMagnitude _ (Nat.lt_of_le_of_lt small (by decide))

example : read? "-NaN".toList = some ⟨0xFFF8000000000000⟩ := by
  decide

end Reader

end Binary64

end SchemaTree
