/-!
# The proleptic Gregorian calendar

Dates of the Gregorian calendar, extended without a gap to every year before its introduction, year
0 and negative years included.  Days are numbered from 0001-01-01, which is day 0.

A day number is turned into a date by peeling off cycles of 400 years, then centuries, blocks of
four years and years.  The leap day is the last day of a block, the missing leap day falls into the
last block of a century, and the leap day that is kept falls into the last century of a cycle; so
the last century and the last year may be one day longer, and their quotients are capped at 3.

## Main definitions

* `Date` — year, month and day.
* `Date.Valid` — the month exists and has the day.
* `Date.dayNumber` — the number of a day, counted year by year and month by month.
* `Date.ofDayNumber` — the date of a day number.
-/

namespace TunnelEvents

/-- A date by year, month and day of the month. -/
structure Date where
  /-- The year; year 0 precedes year 1. -/
  year : Int
  /-- The month, 1 for January. -/
  month : Nat
  /-- The day of the month, from 1. -/
  day : Nat
  deriving DecidableEq, Repr

namespace Calendar

/-- Whether a year has a leap day. -/
def isLeap (year : Int) : Bool :=
  year % 4 = 0 && (year % 100 ≠ 0 || year % 400 = 0)

/-- The lengths of the months in order. -/
def monthLengths (leap : Bool) : List Nat :=
  [31, if leap then 29 else 28, 31, 30, 31, 30, 31, 31, 30, 31, 30, 31]

/-- The number of the first day of a year: 365 days for each year before it and its leap days. -/
def firstDay (year : Int) : Int :=
  365 * (year - 1) + (year - 1) / 4 - (year - 1) / 100 + (year - 1) / 400

/-- The year of a day number, and how many days of that year come before it. -/
def yearAndDay (n : Int) : Int × Nat :=
  let cycle := n / 146097
  let inCycle := (n % 146097).toNat
  let century := min (inCycle / 36524) 3
  let inCentury := inCycle - 36524 * century
  let block := inCentury / 1461
  let inBlock := inCentury % 1461
  let year := min (inBlock / 365) 3
  (400 * cycle + 100 * century + 4 * block + year + 1, inBlock - 365 * year)

/-- The month, counted from `month` on, and the day of that month, `before` days after the first day
of the month that `lengths` begins with. -/
def monthAndDay (month : Nat) : List Nat → Nat → Nat × Nat
  | [], before => (month, before + 1)
  | length :: lengths, before =>
    if before < length then (month, before + 1)
    else monthAndDay (month + 1) lengths (before - length)

end Calendar

namespace Date

open Calendar

/-- The month exists and the day lies within it. -/
def Valid (d : Date) : Prop :=
  1 ≤ d.month ∧ d.month ≤ 12 ∧ 1 ≤ d.day ∧
    d.day ≤ (monthLengths (isLeap d.year)).getD (d.month - 1) 0

instance (d : Date) : Decidable d.Valid := by
  unfold Valid
  infer_instance

/-- How many days lie between 0001-01-01 and a date. -/
def dayNumber (d : Date) : Int :=
  let months := (monthLengths (isLeap d.year)).take (d.month - 1)
  firstDay d.year + (months.foldr (· + ·) 0 : Nat) + (d.day - 1 : Nat)

/-- The date that lies `n` days after 0001-01-01. -/
def ofDayNumber (n : Int) : Date :=
  let (year, before) := yearAndDay n
  let (month, day) := monthAndDay 1 (monthLengths (isLeap year)) before
  ⟨year, month, day⟩

end Date

end TunnelEvents
