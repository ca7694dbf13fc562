import TunnelEvents.Proofs.Line.Image
import TunnelEvents.Proofs.Time.Instant

/-!
# Timestamps of lines

An echo and a change of state begin with a field for an instant.  The decimal of any number of
seconds within the range is such a field: it holds no comma, so what follows the comma after it
makes no difference to the instant.

## Main results

* `Echo.ofBody_append_comma`, `StateReport.rawTimestamp_ofBody_append_comma` — the field before the
  first comma is that of the instant.
* `timestamps_denote` — **which fields denote an instant, and which instant lines tell.**
-/

namespace TunnelEvents

/-! ### Decimals and commas -/

theorem Decimal.Denotes.not_mem_comma {cs : List Char} {n : Nat} (h : Denotes cs n) :
    ',' ∉ cs := by
  intro hmem
  exact absurd (List.all_eq_true.mp h.all_isDigit ',' hmem) (by decide)

/-- A text that denotes an integer holds no comma. -/
theorem Decimal.SignedDenotes.isField {s : String} {n : Int} (h : SignedDenotes s.toList n) :
    Fields.IsField s := by
  rw [Fields.IsField]
  generalize s.toList = cs at h
  cases h with
  | bare h => exact h.not_mem_comma
  | plus h => exact List.not_mem_cons_of_ne_of_not_mem (by decide) h.not_mem_comma
  | minus h => exact List.not_mem_cons_of_ne_of_not_mem (by decide) h.not_mem_comma

/-! ### Bodies -/

/-- What stands before the first comma of an echo is the field of its instant. -/
theorem Echo.ofBody_append_comma {f : String} (h : Fields.IsField f) (rest : String) :
    Echo.ofBody (f ++ "," ++ rest) = ⟨f, rest⟩ := by
  rw [← Fields.join_pair]
  exact Echo.ofBody_join (e := ⟨f, rest⟩) h

/-- What stands before the first comma of a change of state is the field of its instant. -/
theorem StateReport.rawTimestamp_ofBody_append_comma {f : String} (h : Fields.IsField f)
    (rest : String) : (StateReport.ofBody (f ++ "," ++ rest)).rawTimestamp = f := by
  rw [StateReport.ofBody, Fields.split_append_comma h, Fields.textAt_cons_zero]

/-! ### Lines -/

/-- A line is read with its instant if the body begins with the decimal of the seconds. -/
theorem instant?_of_decimal (t : Instant) (rest : String) :
    (Echo.ofBody (t.seconds.repr ++ "," ++ rest)).instant? = some t ∧
      (StateReport.ofBody (t.seconds.repr ++ "," ++ rest)).instant? = some t := by
  have hdenotes := Decimal.signedDenotes_repr t.seconds
  have hread := Instant.read?_eq_some_iff.mpr hdenotes
  rw [Echo.instant?, StateReport.instant?, Echo.ofBody_append_comma hdenotes.isField,
    StateReport.rawTimestamp_ofBody_append_comma hdenotes.isField]
  exact ⟨hread, hread⟩

/-- The body of a line after its tag and the decimal of a number of seconds. -/
theorem ofLine_tag_decimal (k : EventKind) (n : Int) (rest : Bytes) :
    Event.ofLine (Utf8.encode (k.tag ++ ":" ++ n.repr ++ ",") ++ rest)
      = Event.ofBody k (n.repr ++ "," ++ Utf8.decodeLossy rest) := by
  rw [String.append_assoc, Utf8.encode_append, List.append_assoc, Event.ofLine_tag_append,
    Utf8.decodeLossy_encode_append]

/-- A field denotes an instant exactly if it is a run of digits with at most one sign before it,
whose number lies within the range; the instant is that number.  Zeros in front make no difference,
and neither does a plus sign.  An echo and a change of state tell the instant whose decimal they
begin with, whatever bytes follow. -/
theorem timestamps_denote :
    (∀ raw, (Instant.read? raw).isSome = true ↔
      ∃ n : Int, Decimal.SignedDenotes raw.toList n ∧ -8334601228800 ≤ n ∧ n ≤ 8210266876799) ∧
    (∀ raw t, Instant.read? raw = some t ↔ Decimal.SignedDenotes raw.toList t.seconds) ∧
    (∀ zeros n : Nat,
      Instant.read? (Decimal.withZeros zeros n) = Instant.read? n.repr ∧
      Instant.read? ("+" ++ Decimal.withZeros zeros n) = Instant.read? n.repr ∧
      Instant.read? ("-" ++ Decimal.withZeros zeros n) = Instant.read? ("-" ++ n.repr)) ∧
    (Instant.read? "-0").map Instant.seconds = some 0 ∧
    ∀ n : Int, -8334601228800 ≤ n → n ≤ 8210266876799 → ∀ rest : Bytes,
      (∃ e, Event.ofLine (Utf8.encode ("ECHO:" ++ n.repr ++ ",") ++ rest) = .echo e ∧
        e.instant?.map Instant.seconds = some n) ∧
      ∃ r, Event.ofLine (Utf8.encode ("STATE:" ++ n.repr ++ ",") ++ rest) = .state r ∧
        r.instant?.map Instant.seconds = some n := by
  refine ⟨fun raw => Instant.read?_isSome_iff, fun raw t => Instant.read?_eq_some_iff,
    Instant.read?_zeros, by decide, fun n hfirst hlast rest => ?_⟩
  obtain ⟨hecho, hstate⟩ := instant?_of_decimal ⟨n, hfirst, hlast⟩ (Utf8.decodeLossy rest)
  refine ⟨⟨_, ofLine_tag_decimal .echo n rest, ?_⟩, ⟨_, ofLine_tag_decimal .state n rest, ?_⟩⟩
  · rw [hecho, Option.map_some]
  · rw [hstate, Option.map_some]

/-- The first instant may be told by a line that goes on with an ill-formed byte, and a number of
seconds that 64 bits cannot hold is none. -/
theorem timestamps_denote_first :
    (∃ e, Event.ofLine (Utf8.encode "ECHO:-8334601228800," ++ [0xFF]) = .echo e ∧
      e.instant?.map Instant.seconds = some (-8334601228800)) ∧
    (Instant.read? "18446744073709551617").isSome = false := by
  obtain ⟨hsome, -, -, -, hlines⟩ := timestamps_denote
  obtain ⟨hecho, -⟩ := hlines (-8334601228800) (by decide) (by decide) [0xFF]
  refine ⟨hecho, Bool.eq_false_iff.mpr fun h => ?_⟩
  obtain ⟨n, hn, -, hlast⟩ := (hsome _).mp h
  have hvalue : Decimal.signed? "18446744073709551617".toList = some 18446744073709551617 := by
    decide
  rw [Decimal.signed?_eq_some_iff.mpr hn] at hvalue
  obtain rfl := Option.some.inj hvalue
  exact absurd hlast (by decide)

end TunnelEvents
