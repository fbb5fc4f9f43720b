/-!
Dates of the Gregorian calendar, extended to all years, and the days next to a date.
-/

namespace SchemaTree.Calendar

/-- Whether a year has a twenty-ninth of February. -/
def isLeapYear (year : Int) : Bool :=
  year % 4 = 0 && (year % 100 ≠ 0 || year % 400 = 0)

/-- How many days a month has; there is no month but the first to the twelfth. -/
def daysInMonth (year : Int) (month : Nat) : Nat :=
  if month = 2 then (if isLeapYear year then 29 else 28)
  else if month = 4 ∨ month = 6 ∨ month = 9 ∨ month = 11 then 30
  else if 1 ≤ month ∧ month ≤ 12 then 31
  else 0

/-- A day of the calendar. -/
structure Date where
  year : Int
  month : Nat
  day : Nat
  one_le_day : 1 ≤ day
  day_le : day ≤ daysInMonth year month
  deriving DecidableEq, Repr

theorem twentyEight_le_daysInMonth (year : Int) (month : Nat) (first : 1 ≤ month)
    (last : month ≤ 12) : 28 ≤ daysInMonth year month := by
  unfold daysInMonth
  repeat' split
  all_goals omega

theorem month_mem_of_daysInMonth_pos {year : Int} {month : Nat}
    (positive : 1 ≤ daysInMonth year month) : 1 ≤ month ∧ month ≤ 12 := by
  unfold daysInMonth at positive
  repeat' split at positive
  all_goals omega

namespace Date

/-- The date of given parts, if the calendar has it. -/
def ofParts? (year : Int) (month day : Nat) : Option Date :=
  if valid : 1 ≤ day ∧ day ≤ daysInMonth year month then
    some ⟨year, month, day, valid.1, valid.2⟩
  else none

theorem month_mem (date : Date) : 1 ≤ date.month ∧ date.month ≤ 12 :=
  month_mem_of_daysInMonth_pos (Nat.le_trans date.one_le_day date.day_le)

def firstOf (year : Int) (month : Nat) (first : 1 ≤ month) (last : month ≤ 12) : Date :=
  ⟨year, month, 1, Nat.le_refl 1, by
    have := twentyEight_le_daysInMonth year month first last
    omega⟩

def lastOf (year : Int) (month : Nat) (first : 1 ≤ month) (last : month ≤ 12) : Date :=
  ⟨year, month, daysInMonth year month, by
    have := twentyEight_le_daysInMonth year month first last
    omega, Nat.le_refl _⟩

def next (date : Date) : Date :=
  if within : date.day + 1 ≤ daysInMonth date.year date.month then
    ⟨date.year, date.month, date.day + 1, Nat.le_add_left 1 date.day, within⟩
  else if early : date.month < 12 then
    firstOf date.year (date.month + 1) (Nat.le_add_left 1 date.month) early
  else firstOf (date.year + 1) 1 (by decide) (by decide)

def previous (date : Date) : Date :=
  if later : 2 ≤ date.day then
    ⟨date.year, date.month, date.day - 1, by omega, by
      have := date.day_le
      omega⟩
  else if late : 2 ≤ date.month then
    lastOf date.year (date.month - 1) (by omega) (by
      have := date.month_mem
      omega)
  else lastOf (date.year - 1) 12 (by decide) (by decide)

end Date

end SchemaTree.Calendar
