import SchemaTree.Calendar.Date

/-!
Points in time as a local date, a local time and an offset from UTC in seconds.  A second may be
a leap second, which is the second before it running on past its end.
-/

namespace SchemaTree.Calendar

/-- A time of day. -/
structure Time where
  /-- Whole seconds since midnight. -/
  seconds : Nat
  /-- Nanoseconds into that second; a leap second has a thousand million or more. -/
  nanos : Nat
  seconds_lt : seconds < 86400
  nanos_lt : nanos < 2000000000
  deriving DecidableEq, Repr

def Time.midnight : Time := ⟨0, 0, by decide, by decide⟩

def Time.ofParts? (hour minute second nanos : Nat) : Option Time :=
  if valid : hour < 24 ∧ minute < 60 ∧ second < 60 ∧ nanos < 2000000000 then
    some ⟨hour * 3600 + minute * 60 + second, nanos, by omega, valid.2.2.2⟩
  else none

/-- A local date and time with its offset from UTC. -/
structure DateTime where
  date : Date
  time : Time
  /-- Seconds east of UTC, less than a day either way. -/
  offset : Int
  offset_lt : -86400 < offset ∧ offset < 86400
  deriving DecidableEq, Repr

namespace DateTime

/-- The date and time of given parts, if the offset is less than a day. -/
def ofParts? (date : Date) (time : Time) (offset : Int) : Option DateTime :=
  if offset_lt : -86400 < offset ∧ offset < 86400 then some ⟨date, time, offset, offset_lt⟩
  else none

def midnight (date : Date) : DateTime :=
  ⟨date, Time.midnight, 0, by decide⟩

/-- The same point in time with no offset: the day before or after, if the offset leads there. -/
def toUtc (value : DateTime) : DateTime :=
  let seconds : Int := value.time.seconds - value.offset
  if early : seconds < 0 then
    ⟨value.date.previous, ⟨(seconds + 86400).toNat, value.time.nanos, by
      have := value.offset_lt
      omega, value.time.nanos_lt⟩, 0, by decide⟩
  else if late : 86400 ≤ seconds then
    ⟨value.date.next, ⟨(seconds - 86400).toNat, value.time.nanos, by
      have := value.offset_lt
      have := value.time.seconds_lt
      omega, value.time.nanos_lt⟩, 0, by decide⟩
  else
    ⟨value.date, ⟨seconds.toNat, value.time.nanos, by omega, value.time.nanos_lt⟩, 0, by decide⟩

def sameInstant (left right : DateTime) : Bool :=
  left.toUtc = right.toUtc

end DateTime

end SchemaTree.Calendar
