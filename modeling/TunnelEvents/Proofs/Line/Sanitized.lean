import TunnelEvents.Proofs.Line.Marker
import TunnelEvents.Proofs.Text.Utf8.Sanitized

/-!
# Lines that are sanitized first

A line may be sanitized before it is read.  The marker, the tag and its colon are in ASCII, so they
are found where they were and nowhere else, and the body says the same text.  Only a malformed line
is kept byte by byte, so only there it can be told that the bytes have changed.

## Main definitions

* `Line.sanitize` — the shape of a sanitized line, from the shape of the line.

## Main results

* `shaped_sanitize_iff` — a sanitized line is shaped as the line was.
* `dropMarker_sanitize` — the marker may be taken off before or after.
* `Line.read_sanitize` — sanitizing a line sanitizes its body.
* `Event.ofLine_sanitize` — **the event of a sanitized line.**
-/

namespace TunnelEvents

/-! ### The shape -/

theorem IsWord.toNat_lt_append_colon {s : String} (h : IsWord s) :
    ∀ c ∈ (s ++ ":").toList, c.toNat < 0x80 := by
  rw [String.toList_append, List.forall_mem_append]
  exact ⟨h.toNat_lt, by simp⟩

/-- A sanitized line has the tag of the line, and its body is sanitized. -/
theorem shaped_sanitize_iff {line body : Bytes} {word : String} :
    Shaped (Utf8.sanitize line) word body ↔
      ∃ body', Shaped line word body' ∧ body = Utf8.sanitize body' := by
  constructor
  · rintro ⟨hword, hline⟩
    rw [← encode_colon_append,
      Utf8.sanitize_eq_append_iff hword.toNat_lt_append_colon] at hline
    obtain ⟨body', hline, hbody⟩ := hline
    rw [encode_colon_append] at hline
    exact ⟨body', ⟨hword, hline⟩, hbody⟩
  · rintro ⟨body', ⟨hword, rfl⟩, rfl⟩
    refine ⟨hword, ?_⟩
    rw [← encode_colon_append, ← encode_colon_append, Utf8.sanitize_encode_append]

/-- The shape of a sanitized line, from the shape of the line. -/
def Line.sanitize : Line → Line
  | malformed raw => .malformed (Utf8.sanitize raw)
  | tagged tag body => .tagged tag (Utf8.sanitize body)

/-- Sanitizing a line sanitizes its body, or all of it if it has no tag. -/
theorem Line.read_sanitize (line : Bytes) :
    Line.read (Utf8.sanitize line) = (Line.read line).sanitize := by
  rcases shaped_or_not_shaped line with ⟨word, body, h⟩ | hline
  · rw [Line.read_of_shaped h, Line.read_of_shaped (shaped_sanitize_iff.mpr ⟨body, h, rfl⟩)]
    rfl
  · have hsanitized : ∀ word body, ¬ Shaped (Utf8.sanitize line) word body := by
      intro word body hshaped
      obtain ⟨body', hshaped', -⟩ := shaped_sanitize_iff.mp hshaped
      exact hline word body' hshaped'
    rw [Line.read_of_not_shaped hline, Line.read_of_not_shaped hsanitized]
    rfl

/-- A body is read and logged as the text that it says. -/
theorem Line.sanitize_tagged (tag : String) (body : Bytes) :
    (Line.tagged tag body).sanitize.event = (Line.tagged tag body).event ∧
      (Line.tagged tag body).sanitize.log = (Line.tagged tag body).log := by
  constructor
  · rw [Line.sanitize, Line.event, Line.event, Utf8.decodeLossy_sanitize]
  · rw [Line.sanitize, Line.log, Line.log, Utf8.decodeLossy_sanitize]

theorem Line.event_eq_malformed_iff {l : Line} {raw : Bytes} :
    l.event = .malformed raw ↔ l = .malformed raw := by
  cases l with
  | malformed raw' =>
    show Event.malformed raw' = .malformed raw ↔ _
    rw [Event.malformed.injEq, Line.malformed.injEq]
  | tagged tag body =>
    constructor
    · intro h
      have htag : (Line.tagged tag body).event.tag? = some tag := Event.tag?_ofTagged tag _
      rw [h] at htag
      cases htag
    · intro h
      cases h

/-! ### The marker -/

/-- The marker is in ASCII, so it may be taken off before or after. -/
theorem dropMarker_sanitize (line : Bytes) :
    dropMarker (Utf8.sanitize line) = Utf8.sanitize (dropMarker line) := by
  have hmarker : ∀ c ∈ ">".toList, c.toNat < 0x80 := by simp
  by_cases hhead : line.head? = some 0x3E
  · obtain ⟨rest, rfl⟩ := eq_cons_of_head?_eq_marker hhead
    have hline : Utf8.sanitize (0x3E :: rest) = 0x3E :: Utf8.sanitize rest :=
      Utf8.sanitize_encode_append ">" rest
    rw [hline, dropMarker_marker, dropMarker_marker]
  · have hsanitized : (Utf8.sanitize line).head? ≠ some 0x3E := by
      intro h
      obtain ⟨rest, hrest⟩ := eq_cons_of_head?_eq_marker h
      obtain ⟨rest', rfl, -⟩ := (Utf8.sanitize_eq_append_iff hmarker).mp hrest
      exact hhead rfl
    rw [dropMarker_of_head?_ne hhead, dropMarker_of_head?_ne hsanitized]

/-! ### Events and logs -/

/-- A line with a tag is read and logged as before. -/
theorem Event.ofLine_sanitize_of_tagged {line : Bytes}
    (h : (Event.ofLine line).isMalformed = false) :
    Event.ofLine (Utf8.sanitize line) = Event.ofLine line ∧
      logOfLine (Utf8.sanitize line) = logOfLine line := by
  rw [Event.ofLine] at h
  rw [Event.ofLine, Event.ofLine, logOfLine, logOfLine, Line.read_sanitize]
  cases hread : Line.read line with
  | malformed raw =>
    rw [hread] at h
    cases h
  | tagged tag body => exact Line.sanitize_tagged tag body

/-- A malformed line is malformed as before, and what is kept of it is sanitized. -/
theorem Event.ofLine_sanitize_of_malformed {line raw : Bytes}
    (h : Event.ofLine line = .malformed raw) :
    Event.ofLine (Utf8.sanitize line) = .malformed (Utf8.sanitize raw) := by
  rw [Event.ofLine, Line.event_eq_malformed_iff] at h
  rw [Event.ofLine, Line.event_eq_malformed_iff, Line.read_sanitize, h]
  rfl

/-- Whether a line is sanitized before it is read makes no difference to the event and to the log
if the line has a tag.  Otherwise it is malformed in both cases, and what is kept of it is the
sanitized line.  For notifications it is the same, and what is kept is sanitized without the
marker. -/
theorem Event.ofLine_sanitize :
    (∀ line, (Event.ofLine line).isMalformed = false →
      Event.ofLine (Utf8.sanitize line) = Event.ofLine line ∧
      logOfLine (Utf8.sanitize line) = logOfLine line) ∧
    (∀ line, (Event.ofLine line).isMalformed = true →
      Event.ofLine (Utf8.sanitize line) = .malformed (Utf8.sanitize line)) ∧
    (∀ line, (Event.ofNotification line).isMalformed = false →
      Event.ofNotification (Utf8.sanitize line) = Event.ofNotification line ∧
      logOfNotification (Utf8.sanitize line) = logOfNotification line) ∧
    ∀ line raw, Event.ofNotification line = .malformed raw →
      Event.ofNotification (Utf8.sanitize line) = .malformed (Utf8.sanitize raw) := by
  refine ⟨fun line h => Event.ofLine_sanitize_of_tagged h, fun line h => ?_,
    fun line h => ?_, fun line raw h => ?_⟩
  · rw [Event.isMalformed_ofLine_iff] at h
    exact Event.ofLine_sanitize_of_malformed (Event.ofLine_of_not_shaped h)
  · rw [Event.ofNotification, logOfNotification, dropMarker_sanitize]
    exact Event.ofLine_sanitize_of_tagged h
  · rw [Event.ofNotification, dropMarker_sanitize]
    exact Event.ofLine_sanitize_of_malformed h

/-- An ill-formed body is read as the text it says; an ill-formed tag is none, and stays none when
the line is sanitized. -/
theorem Event.ofLine_sanitize_illFormed :
    (Event.ofLine (Utf8.encode "HOLD:" ++ [0xFF])).isMalformed = false ∧
      Event.ofLine (Utf8.sanitize (Utf8.encode "HOLD:" ++ [0xFF])) = .hold "\uFFFD" ∧
      Event.ofNotification [0x3E, 0xFF, 0x3A] = .malformed [0xFF, 0x3A] ∧
      Event.ofNotification (Utf8.sanitize [0x3E, 0xFF, 0x3A])
        = .malformed [0xEF, 0xBF, 0xBD, 0x3A] := by
  obtain ⟨htagged, -, -, hnotification⟩ := Event.ofLine_sanitize
  have hread : Event.ofLine (Utf8.encode "HOLD:" ++ [0xFF]) = .hold "\uFFFD" := by decide
  have hhold : (Event.ofLine (Utf8.encode "HOLD:" ++ [0xFF])).isMalformed = false := by
    rw [hread]
    rfl
  have hmalformed : Event.ofNotification [0x3E, 0xFF, 0x3A] = .malformed [0xFF, 0x3A] := by decide
  refine ⟨hhold, ?_, hmalformed, hnotification _ _ hmalformed⟩
  rw [(htagged _ hhold).1, hread]

end TunnelEvents
