import TunnelEvents.Text.Decimal.Grammar
import TunnelEvents.Time.CivilTime

/-!
# The grammar of civil times

A civil time is written from the year down to the second, each part but the year in two digits, with
`T` between the date and the time of day and the offset of UTC at the end.  A year is at least four
digits long, and a sign stands before a year that four digits cannot tell.

This states which texts are civil times, and which ones, without a writer or a reader.

## Main definitions

* `WritesYear` — how a year is written.
* `WritesPair` — how a number is written in two digits.
* `CivilTime.Writes` — how a civil time is written.
-/

namespace TunnelEvents

/-- How a year is written. -/
inductive WritesYear : Int → List Char → Prop
  /-- A year from 0 to 9999 has four digits and no sign. -/
  | plain {cs : List Char} {n : Nat} : Decimal.Denotes cs n → cs.length = 4 → WritesYear n cs
  /-- A later year has a plus sign, and no zero in front. -/
  | later {cs : List Char} {n : Nat} : Decimal.Denotes cs n → 9999 < n → cs.head? ≠ some '0' →
    WritesYear n ('+' :: cs)
  /-- An earlier year has a minus sign and at least four digits, and zeros in front only if there
  would be fewer without them. -/
  | earlier {cs : List Char} {n : Nat} : Decimal.Denotes cs n → 0 < n → 4 ≤ cs.length →
    (cs.head? = some '0' → cs.length = 4) → WritesYear (-n) ('-' :: cs)

/-- How a number is written in two digits. -/
structure WritesPair (n : Nat) (cs : List Char) : Prop where
  denotes : Decimal.Denotes cs n
  length_eq : cs.length = 2

/-- How a civil time is written, as in `1970-01-01T00:00:00+00:00`. -/
def CivilTime.Writes (t : CivilTime) (text : String) : Prop :=
  ∃ year month day hour minute second, WritesYear t.date.year year ∧
    WritesPair t.date.month month ∧ WritesPair t.date.day day ∧
    WritesPair t.hour hour ∧ WritesPair t.minute minute ∧ WritesPair t.second second ∧
    text.toList = year ++ '-' :: month ++ '-' :: day ++ 'T' :: hour ++ ':' :: minute
      ++ ':' :: second ++ "+00:00".toList

end TunnelEvents
