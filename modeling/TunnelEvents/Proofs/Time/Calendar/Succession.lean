import TunnelEvents.Proofs.Time.Calendar
import TunnelEvents.Time.Calendar.Succession

/-!
# Day numbers count days

Going on to the next day raises the number of a day by one, across the ends of months and years.
Two dates that exist never have the same number.  So the difference of two numbers is how many days
lead from one date to the other.

## Main results

* `Date.dayNumber_next` — the next day has the next number.
* `Date.eq_of_dayNumber_eq` — a date that exists is told by its number.
* `Date.daysApart_iff` — **the difference of the numbers counts the days between two dates.**
-/

namespace TunnelEvents

attribute [ext] Date

namespace Calendar

/-! ### Days of a year -/

theorem sum_take_month (leap : Bool) {i : Nat} (h : i < 12) :
    ((monthLengths leap).take (i + 1)).sum
      = ((monthLengths leap).take i).sum + (monthLengths leap).getD i 0 := by
  rw [List.sum_take_succ (monthLengths leap) i h, List.getD_eq_getElem?_getD,
    List.getElem?_eq_getElem h, Option.getD_some]

theorem sum_take_monthLengths (leap : Bool) : ((monthLengths leap).take 12).sum
    = (monthLengths leap).sum := rfl

/-- Every month has a first day. -/
theorem one_le_monthLengths : ∀ (leap : Bool), ∀ i < 12, 1 ≤ (monthLengths leap).getD i 0 := by
  decide

end Calendar

namespace Date

open Calendar

/-- How many days of its year come before a date. -/
def daysBefore (d : Date) : Nat :=
  ((monthLengths (isLeap d.year)).take (d.month - 1)).sum + (d.day - 1)

theorem dayNumber_eq (d : Date) : d.dayNumber = firstDay d.year + d.daysBefore := by
  rw [dayNumber, daysBefore]
  simp only [← List.sum_eq_foldr]
  omega

theorem Valid.month_le {d : Date} (h : d.Valid) : d.month ≤ 12 := h.2.1

theorem Valid.one_le_day {d : Date} (h : d.Valid) : 1 ≤ d.day := h.2.2.1

theorem Valid.day_le {d : Date} (h : d.Valid) : d.day ≤ d.monthLength := h.2.2.2

/-- A month ends where the days of the months before it and its own are over. -/
theorem Valid.sum_take_month {d : Date} (h : d.Valid) :
    ((monthLengths (isLeap d.year)).take d.month).sum
      = ((monthLengths (isLeap d.year)).take (d.month - 1)).sum + d.monthLength := by
  obtain ⟨hmonth, hle, -, -⟩ := h
  have hsum := Calendar.sum_take_month (isLeap d.year) (show d.month - 1 < 12 by omega)
  rwa [Nat.sub_add_cancel hmonth] at hsum

/-- A day comes before the end of its month. -/
theorem Valid.daysBefore_lt_sum_take {d : Date} (h : d.Valid) :
    d.daysBefore < ((monthLengths (isLeap d.year)).take d.month).sum := by
  have hday := h.one_le_day
  have hlength := h.day_le
  rw [h.sum_take_month, daysBefore]
  omega

/-- A day comes before the end of its year. -/
theorem Valid.daysBefore_lt {d : Date} (h : d.Valid) : d.daysBefore < yearLength d.year := by
  rw [yearLength, ← sum_take_monthLengths]
  exact Nat.lt_of_lt_of_le h.daysBefore_lt_sum_take (List.monotone_sum_take _ h.month_le)

/-! ### The next day -/

/-- The next day is a day of the month, or the first of the next month or year. -/
theorem next_cases (d : Date) :
    (d.day < d.monthLength ∧ d.next = ⟨d.year, d.month, d.day + 1⟩) ∨
    (d.monthLength ≤ d.day ∧ d.month < 12 ∧ d.next = ⟨d.year, d.month + 1, 1⟩) ∨
    (d.monthLength ≤ d.day ∧ 12 ≤ d.month ∧ d.next = ⟨d.year + 1, 1, 1⟩) := by
  rw [next]
  split
  · next h => exact .inl ⟨h, rfl⟩
  · next h =>
    split
    · next hmonth => exact .inr (.inl ⟨Nat.not_lt.mp h, hmonth, rfl⟩)
    · next hmonth => exact .inr (.inr ⟨Nat.not_lt.mp h, Nat.not_lt.mp hmonth, rfl⟩)

/-- The next day exists. -/
theorem Valid.next {d : Date} (h : d.Valid) : d.next.Valid := by
  obtain ⟨hmonth, hle, hday, -⟩ := h
  rcases next_cases d with ⟨hlt, heq⟩ | ⟨-, hlt, heq⟩ | ⟨-, -, heq⟩
  · rw [heq]
    exact ⟨hmonth, hle, Nat.le_add_left 1 d.day, hlt⟩
  · rw [heq]
    exact ⟨Nat.le_add_left 1 d.month, hlt, Nat.le_refl 1, one_le_monthLengths _ d.month hlt⟩
  · rw [heq]
    exact ⟨Nat.le_refl 1, Nat.le_add_left 1 11, Nat.le_refl 1, one_le_monthLengths _ 0 (by decide)⟩

/-- The next day has the next number. -/
theorem dayNumber_next {d : Date} (h : d.Valid) : d.next.dayNumber = d.dayNumber + 1 := by
  have hle := h.month_le
  have hday := h.one_le_day
  have hlength := h.day_le
  have hsum := h.sum_take_month
  rcases next_cases d with ⟨hlt, heq⟩ | ⟨hend, hlt, heq⟩ | ⟨hend, hlast, heq⟩
  · rw [heq, dayNumber_eq, dayNumber_eq, daysBefore, daysBefore]
    dsimp only
    omega
  · -- the month is over, and all its days come before the next one
    rw [heq, dayNumber_eq, dayNumber_eq, daysBefore, daysBefore]
    dsimp only
    rw [Nat.add_sub_cancel, hsum]
    omega
  · -- the year is over
    have hyear : ((monthLengths (isLeap d.year)).take d.month).sum = yearLength d.year := by
      rw [Nat.le_antisymm hle hlast]
      rfl
    rw [heq, dayNumber_eq, dayNumber_eq, daysBefore, daysBefore, firstDay_succ]
    dsimp only
    rw [Nat.sub_self, List.take_zero, List.sum_nil]
    omega

/-! ### Dates are told by their numbers -/

theorem dayNumber_lt_of_year_lt {d e : Date} (hd : d.Valid) (h : d.year < e.year) :
    d.dayNumber < e.dayNumber := by
  have hbefore := hd.daysBefore_lt
  have hyears := firstDay_add_yearLength_le h
  rw [dayNumber_eq, dayNumber_eq]
  omega

theorem dayNumber_lt_of_month_lt {d e : Date} (hd : d.Valid) (hyear : d.year = e.year)
    (h : d.month < e.month) : d.dayNumber < e.dayNumber := by
  have hbefore := hd.daysBefore_lt_sum_take
  have hmonths : ((monthLengths (isLeap d.year)).take d.month).sum
      ≤ ((monthLengths (isLeap d.year)).take (e.month - 1)).sum :=
    List.monotone_sum_take _ (Nat.le_sub_one_of_lt h)
  have hafter : ((monthLengths (isLeap d.year)).take (e.month - 1)).sum ≤ e.daysBefore := by
    rw [daysBefore, hyear]
    exact Nat.le_add_right _ _
  rw [dayNumber_eq, dayNumber_eq, hyear]
  omega

/-- A date that exists is told by its number. -/
theorem eq_of_dayNumber_eq {d e : Date} (hd : d.Valid) (he : e.Valid)
    (h : d.dayNumber = e.dayNumber) : d = e := by
  have hyear : d.year = e.year := by
    rcases Int.lt_trichotomy d.year e.year with hlt | heq | hlt
    · have hnumber := dayNumber_lt_of_year_lt hd hlt
      omega
    · exact heq
    · have hnumber := dayNumber_lt_of_year_lt he hlt
      omega
  have hmonth : d.month = e.month := by
    rcases Nat.lt_trichotomy d.month e.month with hlt | heq | hlt
    · have hnumber := dayNumber_lt_of_month_lt hd hyear hlt
      omega
    · exact heq
    · have hnumber := dayNumber_lt_of_month_lt he hyear.symm hlt
      omega
  have hday : d.day = e.day := by
    have hfirst := hd.one_le_day
    have hfirst' := he.one_le_day
    rw [dayNumber_eq, dayNumber_eq, daysBefore, daysBefore, hyear, hmonth] at h
    omega
  exact Date.ext hyear hmonth hday

/-! ### Counting days -/

/-- Some days later, there is a date, and its number is larger by so many. -/
theorem later_spec {d : Date} (h : d.Valid) (days : Nat) :
    (d.later days).Valid ∧ (d.later days).dayNumber = d.dayNumber + days := by
  induction days with
  | zero => exact ⟨h, (Int.add_zero _).symm⟩
  | succ days ih =>
    obtain ⟨hvalid, hnumber⟩ := ih
    refine ⟨hvalid.next, ?_⟩
    rw [later_succ, dayNumber_next hvalid, hnumber]
    omega

theorem later_eq_iff {d e : Date} (hd : d.Valid) (he : e.Valid) (days : Nat) :
    d.later days = e ↔ e.dayNumber = d.dayNumber + days := by
  obtain ⟨hvalid, hnumber⟩ := later_spec hd days
  rw [← hnumber]
  constructor
  · rintro rfl
    rfl
  · exact fun h => eq_of_dayNumber_eq hvalid he h.symm

/-- The difference of the numbers counts the days between two dates. -/
theorem daysApart_iff {d e : Date} (hd : d.Valid) (he : e.Valid) {days : Int} :
    DaysApart d e days ↔ e.dayNumber = d.dayNumber + days := by
  cases days with
  | ofNat days => exact later_eq_iff hd he days
  | negSucc days =>
    refine (later_eq_iff he hd (days + 1)).trans ?_
    omega

end Date

end TunnelEvents
