import TunnelEvents.Log
import TunnelEvents.Proofs.Line.Shape

/-!
# The marker of a notification

A notification is a line with one byte in front that no tag can begin with.  So a line that has the
marker is malformed where lines are read as they stand, and a second marker makes a notification
malformed.  Apart from the one marker that is taken off, notifications and lines are read alike,
and there is nothing that only one of them can say.

## Main results

* `not_shaped_marker` — a line that begins with the marker has no tag.
* `Event.ofNotification_ne_iff` — the marker always makes a difference to what is read.
* `Event.ofNotification_ofLine` — **notifications are lines with one marker in front.**
-/

namespace TunnelEvents

/-! ### Taking the marker off -/

@[simp] theorem dropMarker_marker (line : Bytes) : dropMarker (0x3E :: line) = line := by
  rw [dropMarker, if_pos rfl]

theorem dropMarker_of_head?_ne {line : Bytes} (h : line.head? ≠ some 0x3E) :
    dropMarker line = line := by
  cases line with
  | nil => rfl
  | cons b bs =>
    have hb : b ≠ 0x3E := by simpa using h
    rw [dropMarker, if_neg hb]

theorem eq_cons_of_head?_eq_marker {line : Bytes} (h : line.head? = some 0x3E) :
    ∃ rest, line = 0x3E :: rest := by
  cases line with
  | nil => simp at h
  | cons b bs => exact ⟨bs, by rw [Option.some.inj h]⟩

/-! ### Lines with a marker -/

/-- A line with a tag begins with a byte of the tag. -/
theorem Shaped.isTagByte_head {b : UInt8} {line body : Bytes} {word : String}
    (h : Shaped (b :: line) word body) : isTagByte b = true := by
  obtain ⟨hword, hline⟩ := h
  cases henc : Utf8.encode word with
  | nil => exact absurd henc (encode_ne_nil hword.1)
  | cons c cs =>
    rw [henc, List.cons_append, List.cons.injEq] at hline
    apply hword.isTagByte b
    rw [henc, hline.1]
    exact List.mem_cons_self

/-- A line that begins with the marker has no tag. -/
theorem not_shaped_marker (line : Bytes) (word : String) (body : Bytes) :
    ¬ Shaped (0x3E :: line) word body := by
  intro h
  exact absurd h.isTagByte_head (by decide)

theorem Event.ofLine_marker (line : Bytes) :
    Event.ofLine (0x3E :: line) = .malformed (0x3E :: line) :=
  Event.ofLine_of_not_shaped (not_shaped_marker line)

/-- What is kept of a malformed line is that line. -/
theorem Event.eq_of_ofLine_eq_malformed {line raw : Bytes}
    (h : Event.ofLine line = .malformed raw) : raw = line := by
  have hmalformed : (Event.ofLine line).isMalformed = true := by
    rw [h]
    rfl
  rw [Event.ofLine_of_not_shaped (Event.isMalformed_ofLine_iff.mp hmalformed)] at h
  exact (Event.malformed.inj h).symm

/-! ### Notifications -/

theorem Event.ofNotification_marker (line : Bytes) :
    Event.ofNotification (0x3E :: line) = Event.ofLine line := by
  rw [Event.ofNotification, dropMarker_marker]

theorem Event.ofNotification_of_head?_ne {line : Bytes} (h : line.head? ≠ some 0x3E) :
    Event.ofNotification line = Event.ofLine line := by
  rw [Event.ofNotification, dropMarker_of_head?_ne h]

/-- The marker always makes a difference: the line with the marker keeps it, and the line without
it is shorter. -/
theorem Event.ofNotification_ne_iff {line : Bytes} :
    Event.ofNotification line ≠ Event.ofLine line ↔ line.head? = some 0x3E := by
  constructor
  · intro h
    by_cases hhead : line.head? = some 0x3E
    · exact hhead
    · exact absurd (Event.ofNotification_of_head?_ne hhead) h
  · intro h heq
    obtain ⟨rest, rfl⟩ := eq_cons_of_head?_eq_marker h
    rw [Event.ofNotification_marker, Event.ofLine_marker] at heq
    have hlength := congrArg List.length (Event.eq_of_ofLine_eq_malformed heq)
    rw [List.length_cons] at hlength
    omega

/-- A line that is not malformed has no marker. -/
theorem head?_ne_marker_of_isMalformed {line : Bytes}
    (h : (Event.ofLine line).isMalformed = false) : line.head? ≠ some 0x3E := by
  intro hhead
  obtain ⟨rest, rfl⟩ := eq_cons_of_head?_eq_marker hhead
  rw [Event.ofLine_marker] at h
  cases h

/-- A notification with one marker is read and logged as the line after it, and one marker is all
that is taken off.  A line that has a tag is read and logged alike as a notification.  What is read
differs exactly if the line has a marker; then it is malformed as a line, and as a notification if
a second one follows.  Notifications say the same events as lines. -/
theorem Event.ofNotification_ofLine :
    (∀ line, Event.ofNotification (0x3E :: line) = Event.ofLine line ∧
      logOfNotification (0x3E :: line) = logOfLine line) ∧
    (∀ line, (Event.ofLine line).isMalformed = false →
      Event.ofNotification line = Event.ofLine line ∧ logOfNotification line = logOfLine line) ∧
    (∀ line, Event.ofNotification line ≠ Event.ofLine line ↔ line.head? = some 0x3E) ∧
    (∀ line, Event.ofLine (0x3E :: line) = .malformed (0x3E :: line)) ∧
    (∀ line, Event.ofNotification (0x3E :: 0x3E :: line) = .malformed (0x3E :: line)) ∧
    ∀ e, (∃ line, Event.ofNotification line = e) ↔ ∃ line, Event.ofLine line = e := by
  refine ⟨fun line => ⟨Event.ofNotification_marker line, ?_⟩, fun line h => ?_,
    fun line => Event.ofNotification_ne_iff, Event.ofLine_marker, fun line => ?_, fun e => ?_⟩
  · rw [logOfNotification, dropMarker_marker]
  · have hhead := head?_ne_marker_of_isMalformed h
    rw [logOfNotification, dropMarker_of_head?_ne hhead]
    exact ⟨Event.ofNotification_of_head?_ne hhead, rfl⟩
  · rw [Event.ofNotification_marker, Event.ofLine_marker]
  · constructor
    · rintro ⟨line, rfl⟩
      exact ⟨dropMarker line, rfl⟩
    · rintro ⟨line, rfl⟩
      exact ⟨0x3E :: line, Event.ofNotification_marker line⟩

/-- The line `HOLD:` may have one marker as a notification, and not two. -/
theorem Event.ofNotification_ofLine_hold :
    (Event.ofLine (Utf8.encode "HOLD:")).isMalformed = false ∧
      Event.ofNotification (Utf8.encode "HOLD:") = .hold "" ∧
      Event.ofNotification (0x3E :: Utf8.encode "HOLD:") = .hold "" ∧
      Event.ofNotification (0x3E :: 0x3E :: Utf8.encode "HOLD:")
        = .malformed (Utf8.encode ">HOLD:") := by
  obtain ⟨hmarker, htagged, -, -, htwo, -⟩ := Event.ofNotification_ofLine
  have hread : Event.ofLine (Utf8.encode "HOLD:") = .hold "" := by decide
  have hhold : (Event.ofLine (Utf8.encode "HOLD:")).isMalformed = false := by
    rw [hread]
    rfl
  refine ⟨hhold, ?_, ?_, htwo _⟩
  · rw [(htagged _ hhold).1, hread]
  · rw [(hmarker _).1, hread]

end TunnelEvents
