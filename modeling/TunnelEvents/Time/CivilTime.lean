import TunnelEvents.Time.Calendar

/-!
# Civil time

A date and a time of day in UTC.  Every whole second since or before 1970-01-01 00:00:00 is one
civil time, where each day has 86400 seconds.

## Main definitions

* `CivilTime` — a date, an hour, a minute and a second.
* `CivilTime.Valid` — the date exists and the time of day is within a day.
* `CivilTime.seconds` — the seconds from 1970-01-01 00:00:00 to a civil time.
* `CivilTime.ofSeconds` — the civil time of a number of seconds.
* `CivilTime.render` — a civil time as text.
-/

namespace TunnelEvents

/-- A date and a time of day. -/
structure CivilTime where
  date : Date
  hour : Nat
  minute : Nat
  second : Nat
  deriving DecidableEq, Repr

namespace CivilTime

/-- The date exists, and the time of day is within a day without leap seconds. -/
def Valid (t : CivilTime) : Prop := t.date.Valid ∧ t.hour < 24 ∧ t.minute < 60 ∧ t.second < 60

instance (t : CivilTime) : Decidable t.Valid := by
  unfold Valid
  infer_instance

/-- The number of the day 1970-01-01. -/
def epochDay : Int := 719162

theorem epochDay_eq : epochDay = (⟨1970, 1, 1⟩ : Date).dayNumber := by decide

/-- The seconds from 1970-01-01 00:00:00 to a civil time. -/
def seconds (t : CivilTime) : Int :=
  (t.date.dayNumber - epochDay) * 86400 + (t.hour * 3600 + t.minute * 60 + t.second : Nat)

/-- The civil time that lies a number of seconds after 1970-01-01 00:00:00. -/
def ofSeconds (seconds : Int) : CivilTime :=
  let ofDay := (seconds % 86400).toNat
  ⟨Date.ofDayNumber (seconds / 86400 + epochDay), ofDay / 3600, ofDay / 60 % 60, ofDay % 60⟩

/-! ### Written form -/

/-- A number in at least `width` decimal digits. -/
def padded (width n : Nat) : List Char := (Nat.toDigits 10 n).leftpad width '0'

/-- A year in at least four digits; a year outside 0 to 9999 has a sign. -/
def yearDigits (year : Int) : List Char :=
  if year < 0 then '-' :: padded 4 year.natAbs
  else if year ≤ 9999 then padded 4 year.natAbs
  else '+' :: padded 4 year.natAbs

/-- Date, time of day and the offset of UTC, as in `1970-01-01T00:00:00+00:00`. -/
def render (t : CivilTime) : String :=
  String.ofList (yearDigits t.date.year ++ '-' :: padded 2 t.date.month
    ++ '-' :: padded 2 t.date.day ++ 'T' :: padded 2 t.hour ++ ':' :: padded 2 t.minute
    ++ ':' :: padded 2 t.second ++ "+00:00".toList)

end CivilTime

end TunnelEvents
