import TunnelEvents.Time.Calendar

/-!
# The succession of days

A calendar says which day follows which.  The day after a date is the next day of the month; after
the last day of a month it is the first of the next month, and after the last month the first day of
the next year.  Counting days means going from one date to the next.

This says how many days lie between two dates by the rule of the calendar alone, without the number
of a day.

## Main definitions

* `Date.monthLength` — how many days the month of a date has.
* `Date.next` — the day after a date.
* `Date.later` — the date some days later.
* `Date.DaysApart` — how many days lead from one date to another.
-/

namespace TunnelEvents.Date

open Calendar

/-- How many days the month of a date has. -/
def monthLength (d : Date) : Nat := (monthLengths (isLeap d.year)).getD (d.month - 1) 0

/-- The day after a date. -/
def next (d : Date) : Date :=
  if d.day < d.monthLength then ⟨d.year, d.month, d.day + 1⟩
  else if d.month < 12 then ⟨d.year, d.month + 1, 1⟩
  else ⟨d.year + 1, 1, 1⟩

/-- The date that is reached from a date by going on for some days. -/
def later (d : Date) : Nat → Date
  | 0 => d
  | days + 1 => (d.later days).next

/-- Going on for some days leads from `d` to `e`; a negative number of days leads back. -/
def DaysApart (d e : Date) : Int → Prop
  | .ofNat days => d.later days = e
  | .negSucc days => e.later (days + 1) = d

instance (d e : Date) (days : Int) : Decidable (DaysApart d e days) :=
  match days with
  | .ofNat _ => inferInstanceAs (Decidable (_ = _))
  | .negSucc _ => inferInstanceAs (Decidable (_ = _))

@[simp] theorem later_succ (d : Date) (days : Nat) : d.later (days + 1) = (d.later days).next := rfl

/-- The last day of February depends on the year. -/
example : (⟨1900, 2, 28⟩ : Date).later 1 = ⟨1900, 3, 1⟩ ∧
    (⟨0, 2, 28⟩ : Date).later 2 = ⟨0, 3, 1⟩ := by decide

end TunnelEvents.Date
