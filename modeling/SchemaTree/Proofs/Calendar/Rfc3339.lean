import Mathlib.Data.List.TakeDrop
import SchemaTree.Calendar.Rfc3339
import SchemaTree.Proofs.Text.Digits

/-!
Dates and times read back as they were written.  The texts that are read give years of four
digits, offsets of whole minutes, and leap seconds at the end of a minute only; what has these
three properties is written in full.  The text of any other date and time reads as another point
in time, or does not read at all.
-/

namespace SchemaTree.Calendar

open Text

theorem Date.day_le_thirtyOne (date : Date) : date.day ≤ 31 := by
  have within := date.day_le
  unfold daysInMonth at within
  repeat' split at within
  all_goals omega

theorem Date.ofParts?_parts (date : Date) :
    Date.ofParts? date.year date.month date.day = some date := by
  rw [ofParts?, dif_pos ⟨date.one_le_day, date.day_le⟩]

/-- What the text of a date and time can show: a year of four digits, an offset of whole minutes,
and a leap second only at the end of a minute. -/
structure DateTime.Shown (value : DateTime) : Prop where
  year_nonneg : 0 ≤ value.date.year
  year_le : value.date.year ≤ 9999
  offset_minutes : value.offset % 60 = 0
  leap : 1000000000 ≤ value.time.nanos → value.time.seconds % 60 = 59

theorem DateTime.shown_midnight {date : Date} (nonneg : 0 ≤ date.year) (le : date.year ≤ 9999) :
    (DateTime.midnight date).Shown :=
  ⟨nonneg, le, rfl, fun late => absurd late (show ¬1000000000 ≤ 0 by decide)⟩

theorem DateTime.toUtc_midnight (date : Date) :
    (DateTime.midnight date).toUtc = DateTime.midnight date :=
  rfl

/-! ## Points in time -/

theorem DateTime.toUtc_nanos (value : DateTime) : value.toUtc.time.nanos = value.time.nanos := by
  unfold toUtc
  dsimp only
  split
  · rfl
  · split <;> rfl

theorem DateTime.toUtc_seconds (value : DateTime) :
    (value.toUtc.time.seconds : Int) = (value.time.seconds - value.offset) % 86400 := by
  have bounded := value.offset_lt
  have short := value.time.seconds_lt
  unfold toUtc
  dsimp only
  split
  · dsimp only
    omega
  · split
    · dsimp only
      omega
    · dsimp only
      omega

/-- Offsets that differ by less than a day make different points in time of one second of the
day. -/
theorem DateTime.offset_eq_of_toUtc {first second : DateTime}
    (sameInstant : first.toUtc = second.toUtc)
    (sameSecond : first.time.seconds = second.time.seconds)
    (near : (first.offset - second.offset).natAbs < 86400) : first.offset = second.offset := by
  have firstSeconds := first.toUtc_seconds
  have secondSeconds := second.toUtc_seconds
  rw [sameInstant] at firstSeconds
  omega

/-! ## What a text shows -/

/-- The time that a text shows.  A leap second that does not end its minute is shown as the second
after it. -/
def Time.asShown (time : Time) : Time :=
  if inside : 1000000000 ≤ time.nanos ∧ time.seconds % 60 ≠ 59 then
    ⟨time.seconds + 1, time.nanos - 1000000000, by
      have := time.seconds_lt
      omega, by
      have := time.nanos_lt
      omega⟩
  else time

/-- The offset that a text shows, the nearest whole minutes to an offset. -/
def wholeMinutes (offset : Int) : Int :=
  if offset < 0 then -(((offset.natAbs + 30) / 60 : Nat) * 60)
  else ((offset.natAbs + 30) / 60 : Nat) * 60

theorem Time.asShown_of_leap {time : Time}
    (leap : 1000000000 ≤ time.nanos → time.seconds % 60 = 59) : time.asShown = time := by
  rw [asShown, dif_neg]
  rintro ⟨late, inside⟩
  exact inside (leap late)

/-- Only a time that is shown as it is keeps its nanoseconds. -/
theorem Time.leap_of_asShown {time : Time} (kept : time.asShown.nanos = time.nanos)
    (late : 1000000000 ≤ time.nanos) : time.seconds % 60 = 59 := by
  by_contra inside
  rw [asShown, dif_pos ⟨late, inside⟩] at kept
  dsimp only at kept
  omega

theorem wholeMinutes_of_minutes {offset : Int} (minutes : offset % 60 = 0) :
    wholeMinutes offset = offset := by
  unfold wholeMinutes
  split <;> omega

theorem wholeMinutes_near (offset : Int) : (wholeMinutes offset - offset).natAbs < 86400 := by
  unfold wholeMinutes
  split <;> omega

namespace Rfc3339

theorem takeNumber?_padded {width value : Nat} (positive : 0 < width)
    (small : value < tenTo width) (rest : List Char) :
    takeNumber? width (padded width value ++ rest) = some (value, rest) := by
  have long := length_padded positive small
  simp only [takeNumber?, List.take_left' long, List.drop_left' long, long, all_isDigit_padded,
    and_self, if_true, digitsValue_padded]

theorem skip?_cons (char : Char) (rest : List Char) : skip? char (char :: rest) = some rest := by
  rw [skip?, if_pos rfl]

theorem takeDate?_showDate {date : Date} (nonneg : 0 ≤ date.year) (le : date.year ≤ 9999)
    (rest : List Char) : takeDate? (showDate date ++ rest) = some (date, rest) := by
  have month := date.month_mem
  have day := date.day_le_thirtyOne
  have year : ((date.year.toNat : Nat) : Int) = date.year := Int.toNat_of_nonneg nonneg
  have yearSmall : date.year.toNat < tenTo 4 := show date.year.toNat < 10000 by omega
  have monthSmall : date.month < tenTo 2 := show date.month < 100 by omega
  have daySmall : date.day < tenTo 2 := show date.day < 100 by omega
  simp only [showDate, showYear, if_pos (And.intro nonneg le), List.append_assoc, List.cons_append,
    takeDate?, takeNumber?_padded (show 0 < 4 by decide) yearSmall, skip?_cons,
    takeNumber?_padded (show 0 < 2 by decide) monthSmall,
    takeNumber?_padded (show 0 < 2 by decide) daySmall, bind, Option.bind_some, year,
    Date.ofParts?_parts]

/-- A year of more than four digits, or one before the year zero, has a sign in front. -/
theorem takeDate?_signed {date : Date} (outside : ¬(0 ≤ date.year ∧ date.year ≤ 9999))
    (rest : List Char) : takeDate? (showDate date ++ rest) = none := by
  have signed (sign : Char) (isSign : isDigit sign = false) (text : List Char) :
      takeNumber? 4 (sign :: text) = none := by
    rw [takeNumber?, if_neg]
    rintro ⟨_, digits⟩
    rw [List.take_succ_cons, List.all_cons, isSign] at digits
    contradiction
  have noNumber : ∀ text, takeNumber? 4 ((if date.year < 0 then '-' else '+') :: text) = none :=
    signed _ (by split <;> decide)
  simp only [showDate, showYear, if_neg outside, List.cons_append, takeDate?, noNumber, bind,
    Option.bind_none]

/-! ## Fractions of a second -/

/-- A text that a fraction cannot run on into. -/
def EndsFraction : List Char → Prop
  | [] => True
  | char :: _ => char ≠ '.' ∧ isDigit char = false

theorem takeFraction?_digits {digits rest : List Char} (ends : EndsFraction rest)
    (digit : digits.all isDigit = true) (some_digits : digits ≠ [])
    (short : digits.length ≤ 9) :
    takeFraction? ('.' :: digits ++ rest) =
      some (digitsValue digits * tenTo (9 - digits.length), rest) := by
  have split : (digits ++ rest).span isDigit = (digits, rest) := by
    rw [List.span_eq_takeWhile_dropWhile]
    have all : ∀ char ∈ digits, isDigit char = true := List.all_eq_true.mp digit
    rw [List.takeWhile_append_of_pos all, List.dropWhile_append_of_pos all]
    cases rest with
    | nil => simp
    | cons char rest => simp [ends.2]
  simp only [List.cons_append, takeFraction?, split, some_digits, if_false,
    List.take_of_length_le short]

theorem takeFraction?_showFraction {nanos : Nat} {rest : List Char} (ends : EndsFraction rest)
    (small : nanos < 1000000000) :
    takeFraction? (showFraction nanos ++ rest) = some (nanos, rest) := by
  have places (width value : Nat) (positive : 0 < width) (short : width ≤ 9)
      (fits : value < tenTo width) :
      takeFraction? ('.' :: padded width value ++ rest) =
        some (value * tenTo (9 - width), rest) := by
    have long := length_padded positive fits
    have filled : padded width value ≠ [] := by
      intro empty
      rw [empty, List.length_nil] at long
      omega
    rw [takeFraction?_digits ends (all_isDigit_padded width value) filled (by omega),
      digitsValue_padded, long]
  unfold showFraction
  split
  · rename_i none
    rw [none]
    unfold takeFraction?
    split
    · rename_i same
      rw [List.nil_append] at same
      rw [same] at ends
      exact absurd rfl ends.1
    · rfl
  · split
    · rw [places 3 _ (by decide) (by decide) (show _ < 1000 by omega)]
      rw [show nanos / 1000000 * tenTo (9 - 3) = nanos from
        (show nanos / 1000000 * 1000000 = nanos by omega)]
    · split
      · rw [places 6 _ (by decide) (by decide) (show _ < 1000000 by omega)]
        rw [show nanos / 1000 * tenTo (9 - 6) = nanos from
          (show nanos / 1000 * 1000 = nanos by omega)]
      · rw [places 9 _ (by decide) (by decide) (show _ < 1000000000 by omega)]
        rw [show nanos * tenTo (9 - 9) = nanos from Nat.mul_one nanos]

theorem nanos_of_takeFraction? {text rest : List Char} {nanos : Nat}
    (taken : takeFraction? text = some (nanos, rest)) : nanos < 1000000000 := by
  unfold takeFraction? at taken
  split at taken
  · rename_i following
    rw [List.span_eq_takeWhile_dropWhile] at taken
    simp only at taken
    split at taken
    · contradiction
    · simp only [Option.some.injEq, Prod.mk.injEq] at taken
      generalize counted_eq : (following.takeWhile isDigit).take 9 = counted at taken
      have digit : counted.all isDigit = true := by
        rw [← counted_eq, List.all_eq_true]
        intro char member
        exact List.all_eq_true.mp List.all_takeWhile char (List.mem_of_mem_take member)
      have short : counted.length ≤ 9 := by
        rw [← counted_eq]
        exact List.length_take_le 9 _
      have below := digitsValue_lt digit
      have scaled : digitsValue counted * tenTo (9 - counted.length) <
          tenTo counted.length * tenTo (9 - counted.length) :=
        Nat.mul_lt_mul_of_pos_right below (tenTo_pos _)
      rw [← tenTo_add, Nat.add_sub_cancel' short] at scaled
      rw [← taken.1]
      exact scaled
  · simp only [Option.some.injEq, Prod.mk.injEq] at taken
    rw [← taken.1]
    decide

/-! ## Times and offsets -/

theorem takeTime?_showTime (time : Time) {rest : List Char} (ends : EndsFraction rest) :
    takeTime? (showTime time ++ rest) = some (time.asShown, rest) := by
  obtain ⟨seconds, nanos, seconds_lt, nanos_lt⟩ := time
  have hour : seconds / 3600 < tenTo 2 := show seconds / 3600 < 100 by omega
  have minute : seconds / 60 % 60 < tenTo 2 := show seconds / 60 % 60 < 100 by omega
  have second : seconds % 60 + nanos / 1000000000 < tenTo 2 :=
    show seconds % 60 + nanos / 1000000000 < 100 by omega
  have two : 0 < 2 := by decide
  simp only [showTime, List.append_assoc, List.cons_append, takeTime?,
    takeNumber?_padded two hour, takeNumber?_padded two minute, takeNumber?_padded two second,
    skip?_cons, takeFraction?_showFraction ends (Nat.mod_lt nanos (by decide)), bind,
    Option.bind_some]
  by_cases late : 1000000000 ≤ nanos
  · by_cases last : seconds % 60 = 59
    · rw [if_pos (by omega), Time.ofParts?,
        dif_pos ⟨by omega, by omega, by decide, by omega⟩, Option.bind_some,
        Time.asShown_of_leap fun _ => last]
      simp only [Option.some.injEq, Prod.mk.injEq, Time.mk.injEq, and_true]
      omega
    · rw [if_neg (by omega), Time.ofParts?,
        dif_pos ⟨by omega, by omega, by omega, by omega⟩, Option.bind_some, Time.asShown,
        dif_pos ⟨late, last⟩]
      simp only [Option.some.injEq, Prod.mk.injEq, Time.mk.injEq, and_true]
      omega
  · rw [if_neg (by omega), Time.ofParts?,
      dif_pos ⟨by omega, by omega, by omega, by omega⟩, Option.bind_some,
      Time.asShown_of_leap fun isLate => absurd isLate late]
    simp only [Option.some.injEq, Prod.mk.injEq, Time.mk.injEq, and_true]
    omega

theorem endsFraction_showOffset (offset : Int) : EndsFraction (showOffset offset) := by
  unfold showOffset
  by_cases negative : offset < 0
  · simp only [negative, if_true, List.cons_append]
    exact ⟨by decide, by decide⟩
  · simp only [negative, if_false, List.cons_append]
    exact ⟨by decide, by decide⟩

theorem takeOffset?_showOffset {offset : Int} (bounded : -86400 < offset ∧ offset < 86400) :
    takeOffset? (showOffset offset) = some (wholeMinutes offset, []) := by
  generalize count_eq : (offset.natAbs + 30) / 60 = count
  have hour : count / 60 < tenTo 2 := show count / 60 < 100 by omega
  have minute : count % 60 < tenTo 2 := show count % 60 < 100 by omega
  have two : 0 < 2 := by decide
  have read (mark : Char) (sign : mark = '+' ∨ mark = '-' ∨ mark = '−')
      (zulu : ¬(mark = 'Z' ∨ mark = 'z')) :
      takeOffset? (mark :: padded 2 (count / 60) ++ ':' :: padded 2 (count % 60)) =
        some (if mark = '+' then (count : Int) * 60 else -((count : Int) * 60), []) := by
    have last := takeNumber?_padded two minute []
    rw [List.append_nil] at last
    simp only [List.cons_append, takeOffset?, if_neg zulu, if_pos sign,
      takeNumber?_padded two hour, skip?_cons, last, bind, Option.bind_some]
    rw [if_pos (Nat.mod_lt count (by decide))]
    have whole : (((count / 60 : Nat) : Int) * 3600 + ((count % 60 : Nat) : Int) * 60) =
        (count : Int) * 60 := by omega
    rw [whole]
  unfold showOffset wholeMinutes
  simp only [count_eq]
  by_cases negative : offset < 0
  · simp only [negative, if_true]
    rw [read '-' (by decide) (by decide), if_neg (by decide)]
  · simp only [negative, if_false]
    rw [read '+' (by decide) (by decide), if_pos rfl]

/-! ## Whole texts -/

/-- What the text of any date and time reads as. -/
theorem read?_write_eq (value : DateTime) :
    read? (write value) = if 0 ≤ value.date.year ∧ value.date.year ≤ 9999 then
      DateTime.ofParts? value.date value.time.asShown (wholeMinutes value.offset) else none := by
  have offset := takeOffset?_showOffset value.offset_lt
  have time := takeTime?_showTime value.time (endsFraction_showOffset value.offset)
  by_cases inside : 0 ≤ value.date.year ∧ value.date.year ≤ 9999
  · rw [if_pos inside]
    simp only [read?, write, String.toList_ofList, List.append_assoc, List.cons_append,
      takeDate?_showDate inside.1 inside.2, bind, Option.bind_some, time, offset, true_or, if_true]
  · rw [if_neg inside]
    simp only [read?, write, String.toList_ofList, List.append_assoc, takeDate?_signed inside, bind,
      Option.bind_none]

theorem parts_of_read?_write {value found : DateTime} (isRead : read? (write value) = some found) :
    found.date = value.date ∧ found.time = value.time.asShown ∧
      found.offset = wholeMinutes value.offset := by
  rw [read?_write_eq] at isRead
  split at isRead
  · rw [DateTime.ofParts?] at isRead
    split at isRead
    · cases isRead
      exact ⟨rfl, rfl, rfl⟩
    · contradiction
  · contradiction

theorem read?_write {value : DateTime} (shown : value.Shown) :
    read? (write value) = some value := by
  rw [read?_write_eq, if_pos ⟨shown.year_nonneg, shown.year_le⟩, Time.asShown_of_leap shown.leap,
    wholeMinutes_of_minutes shown.offset_minutes, DateTime.ofParts?, dif_pos value.offset_lt]

/-! ## What is read -/

theorem lt_of_takeNumber? {count value : Nat} {text rest : List Char}
    (taken : takeNumber? count text = some (value, rest)) : value < tenTo count := by
  simp only [takeNumber?] at taken
  split at taken
  · rename_i enough
    simp only [Option.some.injEq, Prod.mk.injEq] at taken
    have below := digitsValue_lt enough.2
    rw [enough.1] at below
    exact taken.1 ▸ below
  · contradiction

theorem parts_of_takeDate? {text rest : List Char} {date : Date}
    (taken : takeDate? text = some (date, rest)) : 0 ≤ date.year ∧ date.year ≤ 9999 := by
  simp only [takeDate?, bind, Option.bind_eq_some_iff] at taken
  obtain ⟨⟨year, _⟩, yearTaken, _, _, ⟨month, _⟩, _, _, _, ⟨day, _⟩, _, found, parts, same⟩ := taken
  have below : year < 10000 := lt_of_takeNumber? yearTaken
  simp only [Option.some.injEq, Prod.mk.injEq] at same
  simp only [Date.ofParts?] at parts
  split at parts
  · have known : found.year = (year : Int) := by
      rw [← Option.some.inj parts]
    rw [← same.1, known]
    omega
  · contradiction

theorem leap_of_ofParts? {hour minute second nanos : Nat} {time : Time}
    (found : Time.ofParts? hour minute second nanos = some time) :
    time.seconds % 60 = second ∧ time.nanos = nanos := by
  simp only [Time.ofParts?] at found
  split at found
  · rename_i valid
    rw [← Option.some.inj found]
    refine ⟨?_, rfl⟩
    show (hour * 3600 + minute * 60 + second) % 60 = second
    omega
  · contradiction

theorem leap_of_takeTime? {text rest : List Char} {time : Time}
    (taken : takeTime? text = some (time, rest)) (late : 1000000000 ≤ time.nanos) :
    time.seconds % 60 = 59 := by
  simp only [takeTime?, bind, Option.bind_eq_some_iff] at taken
  obtain ⟨⟨hour, _⟩, _, _, _, ⟨minute, _⟩, _, _, _, ⟨second, _⟩, _, ⟨nanos, _⟩, fraction,
    taken⟩ := taken
  have below := nanos_of_takeFraction? fraction
  split at taken <;>
    simp only [Option.bind_eq_some_iff, Option.some.injEq, Prod.mk.injEq] at taken
  · obtain ⟨found, parts, same, _⟩ := taken
    exact same ▸ (leap_of_ofParts? parts).1
  · obtain ⟨found, parts, same, _⟩ := taken
    have whole := (leap_of_ofParts? parts).2
    rw [same] at whole
    omega

theorem minutes_of_takeOffset? {text rest : List Char} {offset : Int}
    (taken : takeOffset? text = some (offset, rest)) : offset % 60 = 0 := by
  cases text with
  | nil => contradiction
  | cons mark text =>
      simp only [takeOffset?] at taken
      split at taken
      · simp only [Option.some.injEq, Prod.mk.injEq] at taken
        rw [← taken.1]
        rfl
      · split at taken
        · simp only [bind, Option.bind_eq_some_iff] at taken
          obtain ⟨⟨hours, _⟩, _, _, _, ⟨minutes, _⟩, _, taken⟩ := taken
          simp only at taken
          split at taken
          · simp only [Option.some.injEq, Prod.mk.injEq] at taken
            rw [← taken.1]
            split <;> omega
          · contradiction
        · contradiction

/-- The texts of dates and times give values that are shown in full. -/
theorem shown_of_read? {text : String} {value : DateTime} (found : read? text = some value) :
    value.Shown := by
  simp only [read?, bind, Option.bind_eq_some_iff] at found
  obtain ⟨⟨date, rest⟩, dateTaken, found⟩ := found
  cases rest with
  | nil => contradiction
  | cons mark rest =>
      simp only at found
      split at found
      · simp only [Option.bind_eq_some_iff] at found
        obtain ⟨⟨time, _⟩, timeTaken, ⟨offset, _⟩, offsetTaken, found⟩ := found
        simp only at found
        split at found
        · simp only [DateTime.ofParts?] at found
          split at found
          · have parts := parts_of_takeDate? dateTaken
            rw [← Option.some.inj found]
            exact ⟨parts.1, parts.2, minutes_of_takeOffset? offsetTaken,
              leap_of_takeTime? timeTaken⟩
          · contradiction
        · contradiction
      · contradiction

/-- The text of a date and time reads as the same point in time exactly if it shows all of it. -/
theorem exists_read?_write_iff {value : DateTime} :
    (∃ found, read? (write value) = some found ∧ found.toUtc = value.toUtc) ↔ value.Shown := by
  constructor
  · rintro ⟨found, isRead, sameInstant⟩
    obtain ⟨sameDate, isTime, isOffset⟩ := parts_of_read?_write isRead
    have shown := shown_of_read? isRead
    have kept : value.time.asShown.nanos = value.time.nanos := by
      rw [← isTime, ← found.toUtc_nanos, sameInstant, value.toUtc_nanos]
    have leap : 1000000000 ≤ value.time.nanos → value.time.seconds % 60 = 59 :=
      Time.leap_of_asShown kept
    have sameSecond : found.time.seconds = value.time.seconds := by
      rw [isTime, Time.asShown_of_leap leap]
    have sameOffset : found.offset = value.offset :=
      DateTime.offset_eq_of_toUtc sameInstant sameSecond
        (isOffset ▸ wholeMinutes_near value.offset)
    exact ⟨sameDate ▸ shown.year_nonneg, sameDate ▸ shown.year_le,
      sameOffset ▸ shown.offset_minutes, leap⟩
  · intro shown
    exact ⟨value, read?_write shown, rfl⟩

end Rfc3339

end SchemaTree.Calendar
