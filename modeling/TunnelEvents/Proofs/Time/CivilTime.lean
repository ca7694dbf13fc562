import TunnelEvents.Proofs.Text.Decimal.Grammar
import TunnelEvents.Proofs.Time.Calendar.Succession
import TunnelEvents.Time.CivilTime.Grammar

/-!
# Civil times and seconds

Every number of seconds has a civil time that exists, and the seconds up to this civil time are that
number.  Its text is as the grammar says, and the grammar reads a text as one civil time at most:
every part but the year has a fixed length, so the parts are found from the end.

## Main results

* `CivilTime.valid_ofSeconds`, `CivilTime.seconds_ofSeconds` — the civil time of a number of
  seconds.
* `CivilTime.writes_render` — the text of a civil time is written as the grammar says.
* `CivilTime.Writes.unique` — **a text is one civil time at most.**
-/

namespace TunnelEvents

attribute [ext] CivilTime

/-! ### Civil times of seconds -/

namespace CivilTime

/-- The civil time of a number of seconds exists. -/
theorem valid_ofSeconds (seconds : Int) : (ofSeconds seconds).Valid := by
  refine ⟨Date.valid_ofDayNumber _, ?_, ?_, ?_⟩
  · show (seconds % 86400).toNat / 3600 < 24
    omega
  · show (seconds % 86400).toNat / 60 % 60 < 60
    omega
  · show (seconds % 86400).toNat % 60 < 60
    omega

/-- The seconds up to the civil time of a number of seconds are that number. -/
theorem seconds_ofSeconds (seconds : Int) : (ofSeconds seconds).seconds = seconds := by
  unfold CivilTime.seconds ofSeconds
  dsimp only
  rw [Date.dayNumber_ofDayNumber]
  omega

end CivilTime

/-! ### Parts of a text -/

theorem denotes_padded (width n : Nat) : Decimal.Denotes (CivilTime.padded width n) n :=
  (Decimal.denotes_toDigits n).zeros_append _

theorem length_padded (width n : Nat) :
    (CivilTime.padded width n).length = max width (Nat.toDigits 10 n).length :=
  List.length_leftpad

/-- A number with at least as many digits is not padded. -/
theorem padded_of_le {width n : Nat} (h : width ≤ (Nat.toDigits 10 n).length) :
    CivilTime.padded width n = Nat.toDigits 10 n := by
  rw [CivilTime.padded, List.leftpad, Nat.sub_eq_zero_of_le h]
  rfl

/-- A number of more digits than are asked for has no zero in front. -/
theorem head?_padded_ne_zero {width n : Nat} (hn : n ≠ 0)
    (h : width ≤ (Nat.toDigits 10 n).length) : (CivilTime.padded width n).head? ≠ some '0' := by
  rw [padded_of_le h]
  exact Decimal.head?_toDigits_ne_zero hn

/-- A number below 100 is written in two digits. -/
theorem writesPair_padded {n : Nat} (h : n < 100) : WritesPair n (CivilTime.padded 2 n) where
  denotes := denotes_padded 2 n
  length_eq := by
    have hdigits : (Nat.toDigits 10 n).length ≤ 2 :=
      (Nat.length_toDigits_le_iff (by decide) (by decide)).mpr h
    rw [length_padded]
    omega

theorem length_toDigits_le_four_iff {n : Nat} : (Nat.toDigits 10 n).length ≤ 4 ↔ n < 10000 :=
  Nat.length_toDigits_le_iff (by decide) (by decide)

theorem writesYear_plain {n : Nat} (h : n ≤ 9999) : WritesYear n (CivilTime.padded 4 n) := by
  refine .plain (denotes_padded 4 n) ?_
  have hdigits := length_toDigits_le_four_iff.mpr (Nat.lt_succ_of_le h)
  rw [length_padded]
  omega

theorem writesYear_later {n : Nat} (h : 9999 < n) :
    WritesYear n ('+' :: CivilTime.padded 4 n) := by
  have hdigits : ¬ (Nat.toDigits 10 n).length ≤ 4 := by
    rw [length_toDigits_le_four_iff]
    omega
  exact .later (denotes_padded 4 n) h (head?_padded_ne_zero (by omega) (by omega))

theorem writesYear_earlier {n : Nat} (h : 0 < n) :
    WritesYear (-n) ('-' :: CivilTime.padded 4 n) := by
  have hlength := length_padded 4 n
  refine .earlier (denotes_padded 4 n) h (by omega) fun hzero => ?_
  -- only a number of fewer digits is padded
  rcases Nat.lt_or_ge (Nat.toDigits 10 n).length 4 with hlt | hge
  · omega
  · exact absurd hzero (head?_padded_ne_zero (by omega) hge)

/-- The digits of a year are as the grammar says. -/
theorem writesYear_yearDigits (year : Int) : WritesYear year (CivilTime.yearDigits year) := by
  unfold CivilTime.yearDigits
  split
  · next hneg =>
    have hyear : year = -(year.natAbs : Int) := by omega
    have hwrites := writesYear_earlier (n := year.natAbs) (by omega)
    rwa [← hyear] at hwrites
  · next hpos =>
    have hyear : year = (year.natAbs : Int) := by omega
    split
    · next hle =>
      have hwrites := writesYear_plain (n := year.natAbs) (by omega)
      rwa [← hyear] at hwrites
    · next hgt =>
      have hwrites := writesYear_later (n := year.natAbs) (by omega)
      rwa [← hyear] at hwrites

/-- No month has more than 31 days. -/
theorem Calendar.monthLengths_le : ∀ leap, ∀ i < 12, (monthLengths leap).getD i 0 ≤ 31 := by
  decide

/-- The text of a civil time is written as the grammar says. -/
theorem CivilTime.writes_render {t : CivilTime} (h : t.Valid) : t.Writes t.render := by
  obtain ⟨⟨hmonth, hmonth_le, hday, hday_le⟩, hhour, hminute, hsecond⟩ := h
  have hlength := Calendar.monthLengths_le (Calendar.isLeap t.date.year) (t.date.month - 1)
    (by omega)
  refine ⟨_, _, _, _, _, _, writesYear_yearDigits t.date.year,
    writesPair_padded (n := t.date.month) (by omega),
    writesPair_padded (n := t.date.day) (by omega), writesPair_padded (n := t.hour) (by omega),
    writesPair_padded (n := t.minute) (by omega), writesPair_padded (n := t.second) (by omega), ?_⟩
  rw [CivilTime.render, String.toList_ofList]

/-! ### Reading a text -/

/-- A part of two digits at the end of a text is found there, and it is one number at most. -/
theorem WritesPair.cut {n m : Nat} {front front' pair pair' : List Char} {c : Char}
    (h : WritesPair n pair) (h' : WritesPair m pair')
    (htext : front ++ c :: pair = front' ++ c :: pair') : front = front' ∧ n = m := by
  have hlength : (c :: pair).length = (c :: pair').length := by
    rw [List.length_cons, List.length_cons, h.length_eq, h'.length_eq]
  obtain ⟨hfront, hpair⟩ := List.append_inj' htext hlength
  obtain rfl : pair = pair' := (List.cons.inj hpair).2
  exact ⟨hfront, h.denotes.unique h'.denotes⟩

/-- A sign tells on which side of the years from 0 to 9999 a year lies. -/
theorem WritesYear.unique {year year' : Int} {cs : List Char} (h : WritesYear year cs)
    (h' : WritesYear year' cs) : year = year' := by
  have hsign : ∀ {sign : Char} {ds : List Char} {n : Nat}, sign.isDigit = false →
      ¬ Decimal.Denotes (sign :: ds) n := by
    intro sign ds n hsign hdenotes
    rw [hdenotes.isDigit_of_head? rfl] at hsign
    cases hsign
  cases h with
  | plain h _ =>
    cases h' with
    | plain h' _ => rw [h.unique h']
    | later h' _ _ => exact absurd h (hsign (by decide))
    | earlier h' _ _ _ => exact absurd h (hsign (by decide))
  | later h _ _ =>
    cases h' with
    | plain h' _ => exact absurd h' (hsign (by decide))
    | later h' _ _ => rw [h.unique h']
  | earlier h _ _ _ =>
    cases h' with
    | plain h' _ => exact absurd h' (hsign (by decide))
    | earlier h' _ _ _ => rw [h.unique h']

/-- A text is one civil time at most. -/
theorem CivilTime.Writes.unique {t t' : CivilTime} {text : String} (h : t.Writes text)
    (h' : t'.Writes text) : t = t' := by
  obtain ⟨year, month, day, hour, minute, second, hyear, hmonth, hday, hhour, hminute, hsecond,
    htext⟩ := h
  obtain ⟨year', month', day', hour', minute', second', hyear', hmonth', hday', hhour', hminute',
    hsecond', htext'⟩ := h'
  -- the parts are cut off from the end, where their lengths are known
  have htime := List.append_cancel_right (htext.symm.trans htext')
  obtain ⟨htoMinute, hsecond_eq⟩ := hsecond.cut hsecond' htime
  obtain ⟨htoHour, hminute_eq⟩ := hminute.cut hminute' htoMinute
  obtain ⟨htoDay, hhour_eq⟩ := hhour.cut hhour' htoHour
  obtain ⟨htoMonth, hday_eq⟩ := hday.cut hday' htoDay
  obtain ⟨rfl, hmonth_eq⟩ := hmonth.cut hmonth' htoMonth
  have hyear_eq := hyear.unique hyear'
  exact CivilTime.ext (Date.ext hyear_eq hmonth_eq hday_eq) hhour_eq hminute_eq hsecond_eq

end TunnelEvents
