import SchemaTree.Calendar.DateTime
import SchemaTree.Text.Digits

/-!
Dates and times as texts after RFC 3339.  Writing shows a fraction in three, six or nine places,
as few as show it whole, and the offset in hours and minutes.  Reading takes years of four digits,
`T`, `t` or a blank before the time, a fraction of any length, `Z`, `z` or an offset, and a leap
second in any minute.
-/

namespace SchemaTree.Calendar.Rfc3339

open Text

/-- A year: four digits, or outside the years 0 to 9999 a sign and at least four. -/
def showYear (year : Int) : List Char :=
  if 0 ≤ year ∧ year ≤ 9999 then padded 4 year.toNat
  else (if year < 0 then '-' else '+') :: padded 4 year.natAbs

def showDate (date : Date) : List Char :=
  showYear date.year ++ '-' :: padded 2 date.month ++ '-' :: padded 2 date.day

def showFraction (nanos : Nat) : List Char :=
  if nanos = 0 then []
  else if nanos % 1000000 = 0 then '.' :: padded 3 (nanos / 1000000)
  else if nanos % 1000 = 0 then '.' :: padded 6 (nanos / 1000)
  else '.' :: padded 9 nanos

/-- A time of day; a leap second is shown as the sixty-first second of its minute. -/
def showTime (time : Time) : List Char :=
  padded 2 (time.seconds / 3600) ++ ':' :: padded 2 (time.seconds / 60 % 60)
    ++ ':' :: padded 2 (time.seconds % 60 + time.nanos / 1000000000)
    ++ showFraction (time.nanos % 1000000000)

/-- An offset, its absolute value rounded to the nearest minute. -/
def showOffset (offset : Int) : List Char :=
  let minutes := (offset.natAbs + 30) / 60
  (if offset < 0 then '-' else '+') :: padded 2 (minutes / 60) ++ ':' :: padded 2 (minutes % 60)

def write (value : DateTime) : String :=
  String.ofList (showDate value.date ++ 'T' :: showTime value.time ++ showOffset value.offset)

/-- A number of exactly `count` digits, and what follows it. -/
def takeNumber? (count : Nat) (text : List Char) : Option (Nat × List Char) :=
  let digits := text.take count
  if digits.length = count ∧ digits.all isDigit then
    some (digitsValue digits, text.drop count)
  else none

def skip? (expected : Char) : List Char → Option (List Char)
  | char :: rest => if char = expected then some rest else none
  | [] => none

/-- A fraction of a second, in nanoseconds: a point and at least one digit, of which nine count. -/
def takeFraction? : List Char → Option (Nat × List Char)
  | '.' :: rest =>
      let (digits, rest) := rest.span isDigit
      if digits = [] then none
      else
        let counted := digits.take 9
        some (digitsValue counted * tenTo (9 - counted.length), rest)
  | text => some (0, text)

/-- An offset in seconds: `Z` or a sign with hours and minutes.  The minus may be the
mathematical one. -/
def takeOffset? : List Char → Option (Int × List Char)
  | [] =>
      none
  | mark :: rest =>
      if mark = 'Z' ∨ mark = 'z' then some (0, rest)
      else if mark = '+' ∨ mark = '-' ∨ mark = '−' then do
        let (hours, rest) ← takeNumber? 2 rest
        let rest ← skip? ':' rest
        let (minutes, rest) ← takeNumber? 2 rest
        if minutes < 60 then
          let seconds : Int := hours * 3600 + minutes * 60
          some (if mark = '+' then seconds else -seconds, rest)
        else none
      else none

/-- Hours, minutes and seconds with a fraction; the second may be the sixty-first. -/
def takeTime? (text : List Char) : Option (Time × List Char) := do
  let (hour, rest) ← takeNumber? 2 text
  let rest ← skip? ':' rest
  let (minute, rest) ← takeNumber? 2 rest
  let rest ← skip? ':' rest
  let (second, rest) ← takeNumber? 2 rest
  let (nanos, rest) ← takeFraction? rest
  let time ←
    if second = 60 then Time.ofParts? hour minute 59 (1000000000 + nanos)
    else Time.ofParts? hour minute second nanos
  some (time, rest)

def takeDate? (text : List Char) : Option (Date × List Char) := do
  let (year, rest) ← takeNumber? 4 text
  let rest ← skip? '-' rest
  let (month, rest) ← takeNumber? 2 rest
  let rest ← skip? '-' rest
  let (day, rest) ← takeNumber? 2 rest
  let date ← Date.ofParts? year month day
  some (date, rest)

def read? (text : String) : Option DateTime := do
  let (date, rest) ← takeDate? text.toList
  match rest with
  | mark :: rest =>
      if mark = 'T' ∨ mark = 't' ∨ mark = ' ' then
        let (time, rest) ← takeTime? rest
        let (offset, rest) ← takeOffset? rest
        if rest = [] then DateTime.ofParts? date time offset else none
      else none
  | [] => none

end SchemaTree.Calendar.Rfc3339
