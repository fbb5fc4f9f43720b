import SchemaTree.Json.Outline
import SchemaTree.Proofs.Text.Hex

/-!
Reading JSON texts token by token.  What the rest of a text reads as does not depend on what stands
before it, so that texts can be read in the pieces that they were written in.
-/

namespace SchemaTree.Json.Token

/-! ## Strings -/

/-- Code points below 256, written with four digits. -/
theorem unit?_digits {code : Nat} (small : code < 256) :
    unit? '0' '0' (Text.Hex.digit (code / 16)) (Text.Hex.digit (code % 16)) = some code := by
  have low := Text.Hex.byte?_digits (UInt8.ofNat code)
  rw [UInt8.toNat_ofNat_of_lt' small] at low
  have high : Text.Hex.byte? '0' '0' = some 0 := rfl
  simp [unit?, high, low, Nat.mod_eq_of_lt small]

theorem takeUnits?_escaped {char meant : Char} (isEscaped : escaped? char = some meant)
    (rest : List Char) :
    takeUnits? ('\\' :: char :: rest) =
      (takeUnits? rest).map fun taken => (meant.toNat :: taken.1, taken.2) := by
  have isPlain : char ≠ 'u' := by
    rintro rfl
    contradiction
  rw [takeUnits?]
  · rw [isEscaped, Option.bind_some]
  · rintro _ _ _ _ _ rfl
    contradiction

theorem takeUnits?_unescaped {char : Char} (isAllowed : 32 ≤ char.toNat) (notQuote : char ≠ '"')
    (notSlash : char ≠ '\\') (rest : List Char) :
    takeUnits? (char :: rest) =
      (takeUnits? rest).map fun taken => (char.toNat :: taken.1, taken.2) := by
  rw [takeUnits?]
  · rw [if_neg (by simp [notSlash]; omega)]
  all_goals simp_all

theorem isSurrogate_toNat (char : Char) :
    isHighSurrogate char.toNat = false ∧ isLowSurrogate char.toNat = false := by
  have valid : char.toNat < 0xD800 ∨ 0xDFFF < char.toNat ∧ char.toNat < 0x110000 := char.valid
  simp only [isHighSurrogate, isLowSurrogate, Bool.and_eq_false_iff, decide_eq_false_iff_not]
  omega

/-- No character is a surrogate, so that characters are read off their code points. -/
theorem ofUnits?_map_toNat (chars : List Char) : ofUnits? (chars.map Char.toNat) = some chars := by
  induction chars with
  | nil => rfl
  | cons char rest inductionHypothesis =>
      obtain ⟨notHigh, notLow⟩ := isSurrogate_toNat char
      cases rest with
      | nil => simp [ofUnits?, notHigh, notLow]
      | cons next later =>
          rw [List.map_cons, List.map_cons, ofUnits?, ← List.map_cons, inductionHypothesis]
          simp [notHigh, notLow]

/-! ## Pieces of texts -/

/-- Whether a text is read as a row of tokens, as long as enough of them are looked for. -/
def Scans (text : List Char) (tokens : List Token) : Prop :=
  ∀ count, text.length ≤ count → scanUpTo count text = some tokens

theorem scan_eq_some {text : String} {tokens : List Token} (scans : Scans text.toList tokens) :
    scan text = some tokens :=
  scans _ (Nat.le_refl _)

namespace Scans

variable {rest : List Char} {tokens : List Token}

theorem nil : Scans [] [] := by
  intro count _
  cases count <;> rfl

theorem mark (char : Char) {token : Token} (isMark : mark? char = some token)
    (notSpace : isSpace char = false) (scans : Scans rest tokens) :
    Scans (char :: rest) (token :: tokens) := by
  intro count enough
  cases count with
  | zero => contradiction
  | succ count =>
      have isRest := scans count (Nat.le_of_succ_le_succ enough)
      simp [scanUpTo, notSpace, isMark, isRest]

/-- A token that is more than a mark ends where the rest begins. -/
theorem taken {char : Char} {text : List Char} {token : Token} (notMark : mark? char = none)
    (notSpace : isSpace char = false) (isTaken : take? (char :: text) = some (token, rest))
    (shorter : rest.length ≤ text.length) (scans : Scans rest tokens) :
    Scans (char :: text) (token :: tokens) := by
  intro count enough
  cases count with
  | zero => contradiction
  | succ count =>
      have isRest := scans count (Nat.le_trans shorter (Nat.le_of_succ_le_succ enough))
      simp [scanUpTo, notSpace, notMark, isTaken, isRest]

end Scans

end SchemaTree.Json.Token
