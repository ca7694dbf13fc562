import TunnelEvents.Text.Decimal
import TunnelEvents.Time.CivilTime

/-!
# Instants

An instant is a whole number of seconds since 1970-01-01 00:00:00 UTC, leap seconds not counted.
Instants reach from the first second of year -262143 to the last second of year 262142; a field
that denotes a second outside denotes no instant.

## Main definitions

* `Instant` — a second within the range.
* `Instant.ofSeconds?` — the instant of a number of seconds.
* `Instant.read?` — the instant that a decimal field denotes.
* `Instant.civil` — date and time of day of an instant.
* `Instant.render` — date and time of day as text.
-/

namespace TunnelEvents

/-- A second, counted from 1970-01-01 00:00:00 UTC. -/
structure Instant where
  /-- The seconds since the start of 1970; negative before it. -/
  seconds : Int
  /-- No instant precedes year -262143. -/
  first_le : -8334601228800 ≤ seconds
  /-- No instant follows year 262142. -/
  le_last : seconds ≤ 8210266876799
  deriving DecidableEq, Repr

namespace Instant

/-- The instant of a number of seconds, if it lies within the range. -/
def ofSeconds? (seconds : Int) : Option Instant :=
  if h : -8334601228800 ≤ seconds ∧ seconds ≤ 8210266876799 then some ⟨seconds, h.1, h.2⟩ else none

/-- The instant that a field denotes: a decimal number of seconds with at most one sign. -/
def read? (field : String) : Option Instant :=
  (Decimal.signed? field.toList).bind ofSeconds?

/-- Date and time of day of an instant. -/
def civil (t : Instant) : CivilTime := CivilTime.ofSeconds t.seconds

/-- Date and time of day of an instant as text. -/
def render (t : Instant) : String := t.civil.render

theorem ofSeconds?_eq_some_iff {seconds : Int} {t : Instant} :
    ofSeconds? seconds = some t ↔ t.seconds = seconds := by
  unfold ofSeconds?
  split
  · next h =>
    rw [Option.some.injEq]
    constructor
    · rintro rfl; rfl
    · rintro rfl; rfl
  · next h =>
    constructor
    · intro hn; cases hn
    · rintro rfl; exact absurd ⟨t.first_le, t.le_last⟩ h

end Instant

end TunnelEvents
