import SchemaTree.Proofs.Calendar.Rfc3339
import SchemaTree.Value.Exchange

/-!
Points in time in exchange.  Every date and every date and time has an exchange form, though the
text in it need not show all of the value: years have four digits there, offsets are in minutes,
and leap seconds end a minute.  The same point in time comes back exactly if the value has these
three properties.
-/

namespace SchemaTree.Value

open Calendar

/-- The date and time that a value denotes; a date denotes its midnight in UTC. -/
def moment? : Value → Option DateTime
  | date day => some (DateTime.midnight day)
  | dateTime moment => some moment
  | _ => none

/-- The point in time that a value denotes, in UTC. -/
def instant? (value : Value) : Option DateTime :=
  value.moment?.map DateTime.toUtc

theorem dateText_eq (day : Date) : dateText day = Rfc3339.write (DateTime.midnight day) := by
  have midnightText : "T00:00:00+00:00" =
      String.ofList ('T' :: Rfc3339.showTime Time.midnight ++ Rfc3339.showOffset 0) := by decide
  rw [dateText, midnightText, ← String.ofList_append, ← List.append_assoc]
  rfl

theorem toJson_moment {value : Value} {moment : DateTime} (isMoment : value.moment? = some moment) :
    value.toJson = .ok (tagged "$date" (Rfc3339.write moment)) := by
  cases value with
  | date day =>
      cases isMoment
      rw [toJson, dateText_eq]
  | dateTime moment =>
      cases isMoment
      rfl
  | _ => contradiction

theorem ofJson_date_eq_ok_iff {text : String} {result : Value} :
    ofJson (tagged "$date" text) = .ok result ↔
      ∃ found, Rfc3339.read? text = some found ∧ result = .dateTime found := by
  show orFault (.date text) ((Rfc3339.read? text).map dateTime) = .ok result ↔ _
  cases Rfc3339.read? text with
  | none => simp [orFault]
  | some found => simp [orFault, eq_comm]

/-- A date, or a date and time, is written with success.  The same point in time is read back
exactly if the text shows all of the value; otherwise nothing is read, or a date and time that has
the offset in whole minutes and for a leap second inside a minute the second after it. -/
theorem moment_returns_iff {value : Value} {moment : DateTime}
    (isMoment : value.moment? = some moment) :
    ∃ json, value.toJson = .ok json ∧
      ((∃ result, ofJson json = .ok result ∧ result.instant? = value.instant?) ↔ moment.Shown) ∧
      ∀ result, ofJson json = .ok result → ∃ found, result = .dateTime found ∧
        found.date = moment.date ∧ found.time = moment.time.asShown ∧
          found.offset = wholeMinutes moment.offset := by
  have isInstant : value.instant? = some moment.toUtc := by
    rw [instant?, isMoment]
    rfl
  refine ⟨_, toJson_moment isMoment, ?_, ?_⟩
  · rw [← Rfc3339.exists_read?_write_iff, isInstant]
    constructor
    · rintro ⟨result, returned, sameInstant⟩
      obtain ⟨found, isRead, rfl⟩ := ofJson_date_eq_ok_iff.mp returned
      exact ⟨found, isRead, Option.some.inj sameInstant⟩
    · rintro ⟨found, isRead, sameInstant⟩
      exact ⟨.dateTime found, ofJson_date_eq_ok_iff.mpr ⟨found, isRead, rfl⟩,
        congrArg some sameInstant⟩
  · intro result returned
    obtain ⟨found, isRead, rfl⟩ := ofJson_date_eq_ok_iff.mp returned
    exact ⟨found, rfl, Rfc3339.parts_of_read?_write isRead⟩

/-- The last moment of a year: a leap second, in a zone ahead of UTC. -/
def lastMoment : DateTime :=
  ⟨⟨2016, 12, 31, by decide, by decide⟩, ⟨86399, 1500000000, by decide, by decide⟩, 19800,
    by decide⟩

theorem moment_returns_iff_lastMoment :
    (dateTime lastMoment).moment? = some lastMoment ∧
      ∃ json, (dateTime lastMoment).toJson = .ok json ∧
        ∃ result, ofJson json = .ok result ∧ result.instant? = (dateTime lastMoment).instant? := by
  obtain ⟨json, written, returns, _⟩ :=
    moment_returns_iff (show (dateTime lastMoment).moment? = some lastMoment from rfl)
  exact ⟨rfl, json, written, returns.mpr ⟨by decide, by decide, by decide, by decide⟩⟩

/-- The first day of a year of five digits. -/
def distantDay : Date :=
  Date.next ⟨9999, 12, 31, by decide, by decide⟩

/-- A noon whose offset has seconds. -/
def ancientNoon : DateTime :=
  ⟨⟨1883, 11, 18, by decide, by decide⟩,
    ⟨43200, 0, by decide, Time.midnight.nanos_lt⟩, 30, by decide⟩

/-- A year of five digits is written but not read, and an offset of thirty seconds comes back as
one of a minute, at another point in time. -/
theorem instant_lost_in_text :
    ((date distantDay).toJson = .ok (tagged "$date" "+10000-01-01T00:00:00+00:00") ∧
        ofJson (tagged "$date" "+10000-01-01T00:00:00+00:00") =
          .error (.codec (.date "+10000-01-01T00:00:00+00:00"))) ∧
      (dateTime ancientNoon).toJson = .ok (tagged "$date" "1883-11-18T12:00:00+00:01") ∧
        ∃ result, ofJson (tagged "$date" "1883-11-18T12:00:00+00:01") = .ok result ∧
          result.instant? ≠ (dateTime ancientNoon).instant? := by
  refine ⟨⟨rfl, rfl⟩, rfl, _, rfl, by decide⟩

end SchemaTree.Value
