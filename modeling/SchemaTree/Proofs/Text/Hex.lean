import SchemaTree.ObjectId
import SchemaTree.Uuid

/-!
Identifiers written in hexadecimal digits read back, and rows of lower-case digits are the texts
of the identifiers they read as.  The texts of object identifiers have twelve pairs of digits of
either case; a plus before a digit makes a pair too, which is read as if it were a zero.
-/

namespace SchemaTree.Text.Hex

/-- Whether a character is a digit of the lower case. -/
def isLowerDigit (char : Char) : Bool :=
  (48 ≤ char.toNat && char.toNat ≤ 57) || (97 ≤ char.toNat && char.toNat ≤ 102)

theorem isLowerDigit_digit {value : Nat} (small : value < 16) :
    isLowerDigit (digit value) = true := by
  have cases : ∀ value : Fin 16, isLowerDigit (digit value.val) = true := by decide
  exact cases ⟨value, small⟩

theorem digit_of_isLowerDigit {char : Char} (lower : isLowerDigit char = true) :
    ∃ value, value < 16 ∧ digitValue? char = some value ∧ digit value = char := by
  simp only [isLowerDigit, Bool.or_eq_true, Bool.and_eq_true, decide_eq_true_eq] at lower
  rcases lower with ⟨least, greatest⟩ | ⟨least, greatest⟩
  · refine ⟨char.toNat - 48, by omega, ?_, ?_⟩
    · rw [digitValue?, if_pos ⟨least, greatest⟩]
    · rw [digit, if_pos (by omega), Nat.add_sub_cancel' least, Char.ofNat_toNat]
  · refine ⟨char.toNat - 87, by omega, ?_, ?_⟩
    · rw [digitValue?, if_neg (by omega), if_pos ⟨least, greatest⟩]
    · rw [digit, if_neg (by omega), Nat.add_sub_cancel' (by omega), Char.ofNat_toNat]

/-- Whether a character is a digit of either case. -/
def isDigit (char : Char) : Bool :=
  isLowerDigit char || (65 ≤ char.toNat && char.toNat ≤ 70)

theorem toLower_of_isLowerDigit {char : Char} (lower : isLowerDigit char = true) :
    char.toLower = char := by
  obtain ⟨value, small, _, rfl⟩ := digit_of_isLowerDigit lower
  have cases : ∀ value : Fin 16, (digit value.val).toLower = digit value.val := by decide
  exact cases ⟨value, small⟩

/-- A digit reads as the number whose digit it is in lower case. -/
theorem digit_of_isDigit {char : Char} (isDigit : isDigit char = true) :
    ∃ value, value < 16 ∧ digitValue? char = some value ∧ digit value = char.toLower := by
  rw [Hex.isDigit, Bool.or_eq_true] at isDigit
  rcases isDigit with lower | upper
  · rw [toLower_of_isLowerDigit lower]
    exact digit_of_isLowerDigit lower
  · rw [Bool.and_eq_true, decide_eq_true_eq, decide_eq_true_eq] at upper
    have cases : ∀ offset : Fin 6, digitValue? (Char.ofNat (65 + offset.val)) =
        some (10 + offset.val) ∧
          digit (10 + offset.val) = (Char.ofNat (65 + offset.val)).toLower := by decide
    have found := cases ⟨char.toNat - 65, by omega⟩
    rw [Nat.add_sub_cancel' upper.1, Char.ofNat_toNat] at found
    exact ⟨10 + (char.toNat - 65), by omega, found⟩

theorem isDigit_of_digitValue? {char : Char} {value : Nat}
    (found : digitValue? char = some value) : isDigit char = true := by
  simp only [digitValue?] at found
  simp only [isDigit, isLowerDigit, Bool.or_eq_true, Bool.and_eq_true, decide_eq_true_eq]
  split at found
  · omega
  · split at found
    · omega
    · split at found
      · omega
      · contradiction

theorem length_encode (bytes : List UInt8) : (encode bytes).length = 2 * bytes.length := by
  induction bytes with
  | nil => rfl
  | cons byte rest inductionHypothesis =>
      rw [encode] at inductionHypothesis
      simp only [encode, List.flatMap_cons, List.length_append, inductionHypothesis,
        List.length_cons, List.length_nil]
      omega

theorem isLowerDigit_of_mem_encode {bytes : List UInt8} {char : Char}
    (member : char ∈ encode bytes) : isLowerDigit char = true := by
  simp only [encode, List.mem_flatMap, List.mem_cons, List.not_mem_nil, or_false] at member
  obtain ⟨byte, -, high | low⟩ := member
  · have := byte.toNat_lt
    exact high ▸ isLowerDigit_digit (by omega)
  · exact low ▸ isLowerDigit_digit (by omega)

/-- Two digits are, in lower case, those of the byte that they read as. -/
theorem digits_of_byte? {high low : Char} (highDigit : isDigit high = true)
    (lowDigit : isDigit low = true) :
    ∃ byte : UInt8, byte? high low = some byte ∧
      [digit (byte.toNat / 16), digit (byte.toNat % 16)] = [high.toLower, low.toLower] := by
  obtain ⟨left, leftSmall, leftRead, leftShown⟩ := digit_of_isDigit highDigit
  obtain ⟨right, rightSmall, rightRead, rightShown⟩ := digit_of_isDigit lowDigit
  have value : (UInt8.ofNat (16 * left + right)).toNat = 16 * left + right := by
    rw [UInt8.toNat_ofNat']
    exact Nat.mod_eq_of_lt (show 16 * left + right < 256 by omega)
  refine ⟨UInt8.ofNat (16 * left + right), ?_, ?_⟩
  · rw [byte?, leftRead, rightRead]
    rfl
  · rw [value, show (16 * left + right) / 16 = left by omega,
      show (16 * left + right) % 16 = right by omega, leftShown, rightShown]

end SchemaTree.Text.Hex

namespace SchemaTree

open Text

namespace ObjectId

/-! ## Pairs of characters -/

/-- Pairs of digits, where a plus may stand in place of the first digit of a pair. -/
def IsPairs : List Char → Prop
  | [] =>
      True
  | [_] =>
      False
  | high :: low :: rest =>
      (Hex.isDigit high = true ∨ high = '+') ∧ Hex.isDigit low = true ∧ IsPairs rest

/-- The lower-case digit that a character of an identifier's text stands for. -/
def shownDigit (char : Char) : Char :=
  if char = '+' then '0' else char.toLower

theorem shownDigit_of_isDigit {char : Char} (isDigit : Hex.isDigit char = true) :
    shownDigit char = char.toLower := by
  rw [shownDigit, if_neg]
  rintro rfl
  exact absurd isDigit (by decide)

theorem readByte?_of_isDigit {high : Char} (isDigit : Hex.isDigit high = true) (low : Char) :
    readByte? high low = Hex.byte? high low := by
  rw [readByte?, if_neg]
  rintro rfl
  exact absurd isDigit (by decide)

/-- A pair stands for the digits of the byte that it reads as. -/
theorem digits_of_readByte? {high low : Char} (highFits : Hex.isDigit high = true ∨ high = '+')
    (lowDigit : Hex.isDigit low = true) :
    ∃ byte : UInt8, readByte? high low = some byte ∧
      [Hex.digit (byte.toNat / 16), Hex.digit (byte.toNat % 16)] =
        [shownDigit high, shownDigit low] := by
  rw [shownDigit_of_isDigit lowDigit]
  rcases highFits with highDigit | rfl
  · rw [shownDigit_of_isDigit highDigit, readByte?_of_isDigit highDigit]
    exact Hex.digits_of_byte? highDigit lowDigit
  · obtain ⟨value, small, isRead, isShown⟩ := Hex.digit_of_isDigit lowDigit
    have byteValue : (UInt8.ofNat value).toNat = value := by
      rw [UInt8.toNat_ofNat']
      exact Nat.mod_eq_of_lt (show value < 256 by omega)
    refine ⟨UInt8.ofNat value, ?_, ?_⟩
    · rw [readByte?, if_pos rfl, isRead]
      rfl
    · rw [byteValue, Nat.div_eq_of_lt small, Nat.mod_eq_of_lt small, isShown]
      rfl

theorem fits_of_readByte? {high low : Char} {byte : UInt8}
    (isRead : readByte? high low = some byte) :
    (Hex.isDigit high = true ∨ high = '+') ∧ Hex.isDigit low = true := by
  rw [readByte?] at isRead
  split at isRead
  · rename_i plus
    obtain ⟨value, found, _⟩ := Option.map_eq_some_iff.mp isRead
    exact ⟨.inr plus, Hex.isDigit_of_digitValue? found⟩
  · obtain ⟨left, leftFound, rest⟩ := Option.bind_eq_some_iff.mp isRead
    obtain ⟨right, rightFound, _⟩ := Option.map_eq_some_iff.mp rest
    exact ⟨.inl (Hex.isDigit_of_digitValue? leftFound), Hex.isDigit_of_digitValue? rightFound⟩

/-- Pairs read as bytes, of which they stand for the digits. -/
theorem readBytes?_of_isPairs {chars : List Char} (pairs : IsPairs chars) :
    ∃ bytes, readBytes? chars = some bytes ∧ Hex.encode bytes = chars.map shownDigit := by
  induction chars using readBytes?.induct with
  | case1 => exact ⟨[], rfl, rfl⟩
  | case2 char => exact pairs.elim
  | case3 high low rest inductionHypothesis =>
      obtain ⟨highFits, lowDigit, following⟩ := pairs
      obtain ⟨byte, pair, digits⟩ := digits_of_readByte? highFits lowDigit
      obtain ⟨bytes, read, shown⟩ := inductionHypothesis following
      refine ⟨byte :: bytes, ?_, ?_⟩
      · rw [readBytes?, pair, read]
        rfl
      · rw [Hex.encode] at shown
        rw [Hex.encode, List.flatMap_cons, digits, shown]
        rfl

theorem isPairs_of_readBytes? {chars : List Char} {bytes : List UInt8}
    (isRead : readBytes? chars = some bytes) : IsPairs chars := by
  induction chars using readBytes?.induct generalizing bytes with
  | case1 => trivial
  | case2 char => contradiction
  | case3 high low rest inductionHypothesis =>
      rw [readBytes?] at isRead
      obtain ⟨byte, pair, others⟩ := Option.bind_eq_some_iff.mp isRead
      obtain ⟨following, found, _⟩ := Option.map_eq_some_iff.mp others
      have fits := fits_of_readByte? pair
      exact ⟨fits.1, fits.2, inductionHypothesis found⟩

theorem isPairs_of_digits {chars : List Char} (even : chars.length % 2 = 0)
    (digits : ∀ char ∈ chars, Hex.isDigit char = true) : IsPairs chars := by
  induction chars using readBytes?.induct with
  | case1 => trivial
  | case2 char => exact absurd even (by simp)
  | case3 high low rest inductionHypothesis =>
      rw [List.length_cons, List.length_cons] at even
      refine ⟨.inl (digits high (by simp)), digits low (by simp), ?_⟩
      exact inductionHypothesis (by omega) fun char member =>
        digits char (List.mem_cons_of_mem _ (List.mem_cons_of_mem _ member))

theorem IsPairs.digits {chars : List Char} (pairs : IsPairs chars) (noPlus : '+' ∉ chars) :
    ∀ char ∈ chars, Hex.isDigit char = true := by
  induction chars using readBytes?.induct with
  | case1 => simp
  | case2 char => exact pairs.elim
  | case3 high low rest inductionHypothesis =>
      obtain ⟨highFits, lowDigit, following⟩ := pairs
      simp only [List.mem_cons, not_or] at noPlus
      have highDigit := highFits.resolve_right (Ne.symm noPlus.1)
      simp only [List.mem_cons, forall_eq_or_imp]
      exact ⟨highDigit, lowDigit, inductionHypothesis following noPlus.2.2⟩

/-! ## Texts -/

/-- Twelve pairs are the text of an identifier, whose own text has the digits that they stand
for. -/
theorem read?_of_isPairs {text : String} (long : text.toList.length = 24)
    (pairs : IsPairs text.toList) :
    ∃ id, read? text = some id ∧ id.hex = text.map shownDigit := by
  obtain ⟨bytes, read, shown⟩ := readBytes?_of_isPairs pairs
  have length_eq : bytes.length = 12 := by
    have twice := Hex.length_encode bytes
    rw [shown, List.length_map] at twice
    omega
  refine ⟨⟨bytes, length_eq⟩, ?_, ?_⟩
  · rw [read?, read, Option.bind_some, ofBytes?, dif_pos length_eq]
  · rw [hex, shown, ← String.toList_map, String.ofList_toList]

/-- Twenty-four lower-case digits are the text of the identifier that they read as. -/
theorem read?_of_lower {text : String} (long : text.toList.length = 24)
    (lower : ∀ char ∈ text.toList, Hex.isLowerDigit char = true) :
    ∃ id, read? text = some id ∧ id.hex = text := by
  have digits : ∀ char ∈ text.toList, Hex.isDigit char = true := by
    intro char member
    rw [Hex.isDigit, lower char member, Bool.true_or]
  obtain ⟨id, read, shown⟩ := read?_of_isPairs long (isPairs_of_digits (by omega) digits)
  refine ⟨id, read, shown.trans ?_⟩
  have same : text.toList.map shownDigit = text.toList := by
    refine (List.map_congr_left fun char member => ?_).trans (List.map_id _)
    rw [shownDigit_of_isDigit (digits char member),
      Hex.toLower_of_isLowerDigit (lower char member), id_eq]
  rw [← String.toList_inj, String.toList_map, same]

theorem length_hex (id : ObjectId) : id.hex.toList.length = 24 := by
  rw [hex, String.toList_ofList, Hex.length_encode, id.length_eq]

theorem isLowerDigit_of_mem_hex {id : ObjectId} {char : Char} (member : char ∈ id.hex.toList) :
    Hex.isLowerDigit char = true := by
  rw [hex, String.toList_ofList] at member
  exact Hex.isLowerDigit_of_mem_encode member

theorem encode_injective {left right : List UInt8} (same : Hex.encode left = Hex.encode right) :
    left = right := by
  have read := Hex.decode?_encode left
  rw [same, Hex.decode?_encode] at read
  exact (Option.some.inj read).symm

theorem read?_hex (id : ObjectId) : read? id.hex = some id := by
  obtain ⟨other, read, shown⟩ := read?_of_lower id.length_hex fun _ => isLowerDigit_of_mem_hex
  rw [read]
  apply congrArg some
  rw [ObjectId.mk.injEq]
  exact encode_injective (String.ofList_injective shown)

theorem pairs_of_read? {text : String} {id : ObjectId} (isRead : read? text = some id) :
    text.toList.length = 24 ∧ IsPairs text.toList := by
  obtain ⟨bytes, found, isId⟩ := Option.bind_eq_some_iff.mp isRead
  have pairs := isPairs_of_readBytes? found
  obtain ⟨same, read, shown⟩ := readBytes?_of_isPairs pairs
  rw [found] at read
  cases read
  rw [ofBytes?] at isId
  split at isId
  · rename_i length_eq
    have twice := congrArg List.length shown
    rw [Hex.length_encode, length_eq, List.length_map] at twice
    exact ⟨twice.symm, pairs⟩
  · contradiction

theorem exists_read?_iff (text : String) :
    (∃ id, read? text = some id) ↔ text.length = 24 ∧ IsPairs text.toList := by
  constructor
  · rintro ⟨id, isRead⟩
    exact pairs_of_read? isRead
  · rintro ⟨long, pairs⟩
    obtain ⟨id, isRead, _⟩ := read?_of_isPairs long pairs
    exact ⟨id, isRead⟩

theorem hex_of_read? {text : String} {id : ObjectId} (isRead : read? text = some id) :
    id.hex = text.map shownDigit := by
  obtain ⟨long, pairs⟩ := pairs_of_read? isRead
  obtain ⟨same, isSame, shown⟩ := read?_of_isPairs long pairs
  cases isRead.symm.trans isSame
  exact shown

theorem toList_toLower (text : String) : text.toLower.toList = text.toList.map Char.toLower :=
  String.toList_map

/-- A text is read as an identifier exactly if it has twelve pairs of digits, where a plus may stand
in place of the first digit of a pair.  Written again, it is in lower case, and has zeros where it
had plus signs.  So unless there are pairs with plus signs, a text is read exactly if it is a row of
twenty-four digits.  Every identifier is read from its own text. -/
theorem reads_pairs_of_digits (text : String) (id : ObjectId) :
    ((∃ found, read? text = some found) ↔ text.length = 24 ∧ IsPairs text.toList) ∧
      (read? text = some id → id.hex = text.map shownDigit) ∧
      (('+' ∈ text.toList → ¬IsPairs text.toList) →
        ((∃ found, read? text = some found) ↔
            text.length = 24 ∧ ∀ char ∈ text.toList, Hex.isDigit char = true) ∧
          (read? text = some id → id.hex = text.toLower)) ∧
      read? id.hex = some id := by
  refine ⟨exists_read?_iff text, hex_of_read?, fun plain => ⟨?_, fun isRead => ?_⟩, read?_hex id⟩
  · rw [exists_read?_iff]
    refine and_congr_right fun long => ⟨fun pairs => ?_, ?_⟩
    · exact pairs.digits fun plus => plain plus pairs
    · exact isPairs_of_digits (by rw [String.length_toList, long])
  · have pairs := (pairs_of_read? isRead).2
    have digits := pairs.digits fun plus => plain plus pairs
    rw [hex_of_read? isRead, ← String.toList_inj, String.toList_map, toList_toLower]
    exact List.map_congr_left fun char member => shownDigit_of_isDigit (digits char member)

/-- Digits of both cases, and no plus sign. -/
theorem reads_pairs_of_digits_mixed :
    '+' ∉ "5F8d0D55b54764421B7156C1".toList ∧
      ∃ id, read? "5F8d0D55b54764421B7156C1" = some id ∧ id.hex = "5f8d0d55b54764421b7156c1" := by
  have noPlus : '+' ∉ "5F8d0D55b54764421B7156C1".toList := by decide
  obtain ⟨id, isRead⟩ := (exists_read?_iff "5F8d0D55b54764421B7156C1").mpr
    ⟨by decide, isPairs_of_digits (by decide) (List.all_eq_true.mp (by decide))⟩
  have written := ((reads_pairs_of_digits _ id).2.2.1 fun plus => absurd plus noPlus).2 isRead
  have inLower : "5F8d0D55b54764421B7156C1".toLower = "5f8d0d55b54764421b7156c1" := by
    rw [← String.toList_inj, toList_toLower]
    decide
  exact ⟨noPlus, id, isRead, inLower ▸ written⟩

/-- A plus sign is no digit, and a text with one is read. -/
theorem plus_sign_read :
    (∃ id, read? "+f8d0d55b54764421b7156c1" = some id ∧ id.hex = "0f8d0d55b54764421b7156c1") ∧
      ¬∀ char ∈ "+f8d0d55b54764421b7156c1".toList, Hex.isDigit char = true :=
  ⟨⟨_, rfl, rfl⟩, fun digits => absurd (digits '+' (by decide)) (by decide)⟩

end ObjectId

namespace Uuid

theorem dehyphenate?_hyphenate (sizes : List Nat) (digits : List Char)
    (long : digits.length = sizes.foldr (· + ·) 12) :
    dehyphenate? sizes (hyphenate sizes digits) = some digits := by
  induction sizes generalizing digits with
  | nil =>
      rw [List.foldr_nil] at long
      rw [hyphenate, dehyphenate?, if_pos long]
  | cons size sizes inductionHypothesis =>
      rw [List.foldr_cons] at long
      have head : (digits.take size).length = size := by
        rw [List.length_take]
        omega
      have tail : (digits.drop size).length = sizes.foldr (· + ·) 12 := by
        rw [List.length_drop]
        omega
      rw [hyphenate, dehyphenate?, List.drop_left' head, List.take_left' head]
      simp only [inductionHypothesis _ tail, Option.map_some, List.take_append_drop]

theorem length_hyphenate (sizes : List Nat) (digits : List Char)
    (long : digits.length = sizes.foldr (· + ·) 12) :
    (hyphenate sizes digits).length = digits.length + sizes.length := by
  induction sizes generalizing digits with
  | nil => rfl
  | cons size sizes inductionHypothesis =>
      rw [List.foldr_cons] at long
      have tail : (digits.drop size).length = sizes.foldr (· + ·) 12 := by
        rw [List.length_drop]
        omega
      simp only [hyphenate, List.length_append, List.length_take, List.length_cons,
        inductionHypothesis _ tail, List.length_drop]
      omega

theorem read?_text (id : Uuid) : read? id.text = some id := by
  have digits : (Hex.encode id.bytes).length = groupSizes.foldr (· + ·) 12 := by
    rw [Hex.length_encode, id.length_eq]
    rfl
  have long : (hyphenate groupSizes (Hex.encode id.bytes)).length = 36 := by
    rw [length_hyphenate _ _ digits, digits]
    rfl
  have groups : readGroups? (hyphenate groupSizes (Hex.encode id.bytes)) = some id := by
    rw [readGroups?, dehyphenate?_hyphenate _ _ digits, Option.bind_some, ofDigits?,
      Hex.decode?_encode, Option.bind_some, ofBytes?, dif_pos id.length_eq]
  simp only [read?, text, String.toList_ofList, long, groups]
  rfl

end Uuid

end SchemaTree
