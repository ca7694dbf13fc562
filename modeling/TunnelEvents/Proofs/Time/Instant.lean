import TunnelEvents.Proofs.Time.CivilTime
import TunnelEvents.Time.Instant

/-!
# Instants as they are read and written

A field denotes an instant exactly if it denotes a whole number of seconds within the range of
instants.  The number is compared with the range as it is, whatever its length, so a field whose
number is out of range never denotes an instant within it.

An instant is written as a date and a time of day.  The text is one civil time only, this civil time
exists, and counting the days from 1970-01-01 to its date and the seconds of its day gives the
seconds of the instant.  So no two instants are written alike.

## Main results

* `Instant.read?_eq_some_iff` — a field is read as the instant that it denotes.
* `Instant.read?_isSome_iff` — **which fields denote an instant.**
* `Instant.read?_zeros` — zeros in front make no difference, and neither does a plus sign.
* `Instant.writes_render_iff` — the text of an instant is its civil time and no other.
* `Instant.render_denotes` — **the civil time that is written is that of the instant.**
-/

namespace TunnelEvents.Instant

open Decimal

/-! ### Reading a field -/

/-- A field is read as the instant that it denotes. -/
theorem read?_eq_some_iff {raw : String} {t : Instant} :
    read? raw = some t ↔ SignedDenotes raw.toList t.seconds := by
  rw [read?, Option.bind_eq_some_iff, ← signed?_eq_some_iff]
  constructor
  · rintro ⟨n, hn, ht⟩
    rw [hn, ofSeconds?_eq_some_iff.mp ht]
  · intro h
    exact ⟨t.seconds, h, ofSeconds?_eq_some_iff.mpr rfl⟩

/-- What a field that denotes a number of seconds is read as. -/
theorem read?_of_denotes {raw : String} {n : Int} (h : SignedDenotes raw.toList n) :
    read? raw = ofSeconds? n := by
  rw [read?, signed?_eq_some_iff.mpr h, Option.bind_some]

theorem isSome_ofSeconds?_iff {n : Int} :
    (ofSeconds? n).isSome = true ↔ -8334601228800 ≤ n ∧ n ≤ 8210266876799 := by
  unfold ofSeconds?
  split
  · next h => exact iff_of_true rfl h
  · next h => exact iff_of_false (by decide) h

/-- A field denotes an instant if it denotes a number within the range, and only then. -/
theorem read?_isSome_iff {raw : String} :
    (read? raw).isSome = true ↔
      ∃ n : Int, SignedDenotes raw.toList n ∧ -8334601228800 ≤ n ∧ n ≤ 8210266876799 := by
  constructor
  · intro h
    obtain ⟨t, ht⟩ := Option.isSome_iff_exists.mp h
    exact ⟨t.seconds, read?_eq_some_iff.mp ht, t.first_le, t.le_last⟩
  · rintro ⟨n, hn, hrange⟩
    rw [read?_of_denotes hn]
    exact isSome_ofSeconds?_iff.mpr hrange

/-! ### Zeros and signs -/

theorem read?_withZeros (zeros n : Nat) : read? (withZeros zeros n) = ofSeconds? n :=
  read?_of_denotes (.bare (denotes_withZeros zeros n))

theorem read?_plus_withZeros (zeros n : Nat) : read? ("+" ++ withZeros zeros n) = ofSeconds? n := by
  apply read?_of_denotes
  rw [String.toList_append]
  exact .plus (denotes_withZeros zeros n)

theorem read?_minus_withZeros (zeros n : Nat) :
    read? ("-" ++ withZeros zeros n) = ofSeconds? (-n) := by
  apply read?_of_denotes
  rw [String.toList_append]
  exact .minus (denotes_withZeros zeros n)

/-- Zeros in front make no difference, and neither does a plus sign. -/
theorem read?_zeros (zeros n : Nat) :
    read? (withZeros zeros n) = read? n.repr ∧ read? ("+" ++ withZeros zeros n) = read? n.repr ∧
      read? ("-" ++ withZeros zeros n) = read? ("-" ++ n.repr) := by
  rw [← withZeros_zero n, read?_withZeros, read?_withZeros, read?_plus_withZeros,
    read?_minus_withZeros, read?_minus_withZeros]
  exact ⟨rfl, rfl, rfl⟩

/-- Every instant is denoted by a field. -/
theorem exists_read?_eq_some (t : Instant) : ∃ raw, read? raw = some t :=
  ⟨t.seconds.repr, read?_eq_some_iff.mpr (signedDenotes_repr t.seconds)⟩

/-! ### Civil times -/

/-- The text of an instant is its civil time and no other. -/
theorem writes_render_iff {t : Instant} {c : CivilTime} : c.Writes t.render ↔ c = t.civil := by
  have hwrites : t.civil.Writes t.render :=
    CivilTime.writes_render (CivilTime.valid_ofSeconds t.seconds)
  constructor
  · exact fun h => h.unique hwrites
  · rintro rfl
    exact hwrites

theorem seconds_civil (t : Instant) : t.civil.seconds = t.seconds :=
  CivilTime.seconds_ofSeconds t.seconds

/-- The days from 1970-01-01 to the date of an instant, and the seconds of its day. -/
theorem exists_daysApart (t : Instant) : ∃ days : Int,
    Date.DaysApart ⟨1970, 1, 1⟩ t.civil.date days ∧
      t.seconds
        = days * 86400 + (t.civil.hour * 3600 + t.civil.minute * 60 + t.civil.second : Nat) := by
  have hdate : t.civil.date.Valid := Date.valid_ofDayNumber _
  refine ⟨t.civil.date.dayNumber - CivilTime.epochDay, ?_, (seconds_civil t).symm⟩
  rw [Date.daysApart_iff (by decide) hdate, ← CivilTime.epochDay_eq]
  omega

/-- Instants of one civil time are the same second. -/
theorem seconds_eq_of_render_eq {t t' : Instant} (h : t.render = t'.render) :
    t.seconds = t'.seconds := by
  have hcivil : t.civil = t'.civil := by
    rw [← writes_render_iff, ← h]
    exact writes_render_iff.mpr rfl
  rw [← seconds_civil t, hcivil, seconds_civil]

/-- Every instant is denoted by a field, and its text is one civil time.  This is a date of the
calendar and a time of a day, and the days that lead to the date from 1970-01-01, of 86400 seconds
each, and the seconds of the day are the seconds of the instant.  So two instants have one text
exactly if they are the same second. -/
theorem render_denotes :
    (∀ t : Instant, (∃ raw, read? raw = some t) ∧
      ∃ c : CivilTime, (∀ c' : CivilTime, c'.Writes t.render ↔ c' = c) ∧ c.Valid ∧
        ∃ days : Int, Date.DaysApart ⟨1970, 1, 1⟩ c.date days ∧
          t.seconds = days * 86400 + (c.hour * 3600 + c.minute * 60 + c.second : Nat)) ∧
    ∀ t t' : Instant, t.render = t'.render ↔ t.seconds = t'.seconds := by
  constructor
  · intro t
    exact ⟨exists_read?_eq_some t, t.civil, fun c' => writes_render_iff,
      CivilTime.valid_ofSeconds t.seconds, exists_daysApart t⟩
  · intro t t'
    constructor
    · exact seconds_eq_of_render_eq
    · intro h
      rw [render, render, civil, civil, h]

end TunnelEvents.Instant
