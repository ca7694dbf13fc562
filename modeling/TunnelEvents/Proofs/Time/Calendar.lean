import Mathlib.Algebra.Order.BigOperators.Group.List
import Mathlib.Algebra.Order.Ring.Nat
import TunnelEvents.Time.Calendar

/-!
# Dates of day numbers

A day number is found by a year and a day of the year, and that by a month and a day of the month.
The year is found by quotients, which are right because of where the leap days lie: the days that
are left when whole cycles, centuries, blocks and years are peeled off are fewer than the year has.
The month is found by going through the lengths of the months.

## Main definitions

* `Calendar.yearLength` — how many days a year has.
* `Calendar.Peeled` — a day number as whole cycles, centuries, blocks, years and days.

## Main results

* `Calendar.firstDay_succ` — a year begins where the year before it ends.
* `Calendar.exists_peeled` — every day number is peeled.
* `Date.valid_ofDayNumber` — the date of a day number exists.
* `Date.dayNumber_ofDayNumber` — **the date of a day number has this number.**
-/

namespace TunnelEvents

namespace Calendar

/-! ### Years -/

/-- How many days a year has. -/
def yearLength (year : Int) : Nat := (monthLengths (isLeap year)).sum

theorem yearLength_eq (year : Int) :
    yearLength year = if isLeap year then 366 else 365 := by
  unfold yearLength
  cases isLeap year <;> rfl

theorem isLeap_iff (year : Int) :
    isLeap year = true ↔ year % 4 = 0 ∧ (year % 100 ≠ 0 ∨ year % 400 = 0) := by
  simp [isLeap]

/-- A year begins where the year before it ends. -/
theorem firstDay_succ (year : Int) : firstDay (year + 1) = firstDay year + yearLength year := by
  rw [yearLength_eq]
  unfold firstDay
  split
  · next h =>
    rw [isLeap_iff] at h
    omega
  · next h =>
    rw [isLeap_iff] at h
    omega

/-- Years begin one after the other. -/
theorem firstDay_add_yearLength_le {year year' : Int} (h : year < year') :
    firstDay year + yearLength year ≤ firstDay year' := by
  rw [← firstDay_succ]
  unfold firstDay
  omega

/-! ### The year of a day number -/

/-- The year after whole cycles of 400 years, centuries, blocks of four years and years. -/
def yearAfter (cycle : Int) (century block year : Nat) : Int :=
  400 * cycle + 100 * century + 4 * block + year + 1

/-- A day number is peeled into cycles, centuries, blocks and years, and the days that are left. -/
structure Peeled (n cycle : Int) (century block year day : Nat) : Prop where
  century_le : century ≤ 3
  block_le : block ≤ 24
  year_le : year ≤ 3
  eq : n = 146097 * cycle + 36524 * century + 1461 * block + 365 * year + day
  /-- Only the last year of a block has one day more, unless it is the last year of a century other
  than the fourth. -/
  day_le : day ≤ 364 ∨ day = 365 ∧ year = 3 ∧ (block ≤ 23 ∨ century = 3)

/-- Of a cycle, three centuries have 36524 days each, and the fourth has one day more. -/
theorem peel_century {inCycle : Nat} (h : inCycle < 146097) :
    ∃ century inCentury, century = min (inCycle / 36524) 3 ∧
      inCentury = inCycle - 36524 * century ∧ inCycle = 36524 * century + inCentury ∧
      century ≤ 3 ∧ (inCentury < 36524 ∨ inCentury = 36524 ∧ century = 3) :=
  ⟨_, _, rfl, rfl, by omega, by omega, by omega⟩

/-- Of a century, each block has 1461 days but the last, which has one day less unless the century
is the fourth. -/
theorem peel_year {century inCentury : Nat}
    (h : inCentury < 36524 ∨ inCentury = 36524 ∧ century = 3) :
    ∃ block year day, block = inCentury / 1461 ∧ year = min (inCentury % 1461 / 365) 3 ∧
      day = inCentury % 1461 - 365 * year ∧ inCentury = 1461 * block + 365 * year + day ∧
      block ≤ 24 ∧ year ≤ 3 ∧ (day ≤ 364 ∨ day = 365 ∧ year = 3 ∧ (block ≤ 23 ∨ century = 3)) :=
  ⟨_, _, _, rfl, rfl, rfl, by omega, by omega, by omega, by omega⟩

/-- Every day number is peeled, and so it gets its year and its day. -/
theorem exists_peeled (n : Int) : ∃ cycle century block year day,
    Peeled n cycle century block year day ∧
      yearAndDay n = (yearAfter cycle century block year, day) := by
  have hinCycle : (n % 146097).toNat < 146097 := by omega
  obtain ⟨century, inCentury, hcentury, hinCentury, hcentury_eq, hcentury_le, hlast⟩ :=
    peel_century hinCycle
  obtain ⟨block, year, day, hblock, hyear, hday, hyear_eq, hblock_le, hyear_le, hday_le⟩ :=
    peel_year hlast
  refine ⟨n / 146097, century, block, year, day,
    ⟨hcentury_le, hblock_le, hyear_le, ?_, hday_le⟩, ?_⟩
  · omega
  · rw [hday, hyear, hblock, hinCentury, hcentury]
    rfl

theorem Peeled.firstDay_add {n cycle : Int} {century block year day : Nat}
    (h : Peeled n cycle century block year day) :
    firstDay (yearAfter cycle century block year) + day = n := by
  obtain ⟨hcentury, hblock, hyear, heq, -⟩ := h
  unfold firstDay yearAfter
  omega

theorem Peeled.lt_yearLength {n cycle : Int} {century block year day : Nat}
    (h : Peeled n cycle century block year day) :
    day < yearLength (yearAfter cycle century block year) := by
  obtain ⟨hcentury, hblock, hyear, -, hday⟩ := h
  rw [yearLength_eq]
  split
  · omega
  · next hleap =>
    rw [isLeap_iff] at hleap
    unfold yearAfter at hleap
    omega

/-- A day number is that of the first day of its year, and the days of the year before it. -/
theorem firstDay_yearAndDay (n : Int) : firstDay (yearAndDay n).1 + (yearAndDay n).2 = n := by
  obtain ⟨cycle, century, block, year, day, hpeeled, heq⟩ := exists_peeled n
  rw [heq]
  exact hpeeled.firstDay_add

/-- The days before a day of a year are fewer than the days of the year. -/
theorem snd_yearAndDay_lt (n : Int) : (yearAndDay n).2 < yearLength (yearAndDay n).1 := by
  obtain ⟨cycle, century, block, year, day, hpeeled, heq⟩ := exists_peeled n
  rw [heq]
  exact hpeeled.lt_yearLength

/-! ### The months of a year -/

/-- A day of the year lies in the month that is found for it. -/
theorem monthAndDay_spec {lengths : List Nat} {before : Nat} (h : before < lengths.sum)
    (month : Nat) : ∃ i day, monthAndDay month lengths before = (month + i, day + 1) ∧
      i < lengths.length ∧ day < lengths.getD i 0 ∧ (lengths.take i).sum + day = before := by
  induction lengths generalizing month before with
  | nil => exact absurd h (Nat.not_lt_zero before)
  | cons length lengths ih =>
    rw [List.sum_cons] at h
    rw [monthAndDay]
    split
    · next hlt => exact ⟨0, before, rfl, Nat.zero_lt_succ _, hlt, Nat.zero_add before⟩
    · next hle =>
      have hrest : before - length < lengths.sum := by omega
      obtain ⟨i, day, heq, hi, hday, hsum⟩ := ih hrest (month + 1)
      refine ⟨i + 1, day, ?_, Nat.succ_lt_succ hi, hday, ?_⟩
      · rw [heq, Nat.add_assoc, Nat.add_comm 1 i]
      · rw [List.take_succ_cons, List.sum_cons]
        omega

end Calendar

namespace Date

open Calendar

/-! ### Dates by their numbers -/

/-- The date of a day number is given by a month of its year and a day of that month. -/
theorem ofDayNumber_spec (n : Int) : ∃ i day, ofDayNumber n = ⟨(yearAndDay n).1, i + 1, day + 1⟩ ∧
    i < 12 ∧ day < (monthLengths (isLeap (yearAndDay n).1)).getD i 0 ∧
    ((monthLengths (isLeap (yearAndDay n).1)).take i).sum + day = (yearAndDay n).2 := by
  obtain ⟨i, day, heq, hi, hday, hsum⟩ := monthAndDay_spec (snd_yearAndDay_lt n) 1
  refine ⟨i, day, ?_, hi, hday, hsum⟩
  rw [ofDayNumber]
  dsimp only
  rw [heq, Nat.add_comm 1 i]

/-- The date of a day number exists. -/
theorem valid_ofDayNumber (n : Int) : (ofDayNumber n).Valid := by
  obtain ⟨i, day, heq, hi, hday, -⟩ := ofDayNumber_spec n
  rw [heq]
  exact ⟨Nat.le_add_left 1 i, hi, Nat.le_add_left 1 day, hday⟩

/-- The date of a day number has this number. -/
theorem dayNumber_ofDayNumber (n : Int) : (ofDayNumber n).dayNumber = n := by
  obtain ⟨i, day, heq, -, -, hsum⟩ := ofDayNumber_spec n
  have hyear := firstDay_yearAndDay n
  rw [heq, dayNumber]
  simp only [Nat.add_sub_cancel, ← List.sum_eq_foldr]
  omega

end Date

end TunnelEvents
