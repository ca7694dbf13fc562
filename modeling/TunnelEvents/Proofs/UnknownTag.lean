import TunnelEvents.Proofs.Line.Image
import TunnelEvents.Proofs.Text.Quoted.Text

/-!
# Tags and the refusal of a tag

A text is read as a kind exactly if it is the tag of the kind.  Any other text is refused, and the
refusal keeps the text and tells it between quotation marks, so that no refusal can be taken for
that of another text.  A line whose tag is refused here is one whose event has no kind.

## Main results

* `EventKind.parse_eq_ok_iff`, `EventKind.parse_eq_error_iff` — what is read and what is refused.
* `UnknownTag.message_inj` — different texts are refused differently.
* `EventKind.parse_lossless` — **tags are read as their kinds, and refusals tell the text.**
-/

namespace TunnelEvents

/-! ### Reading a tag -/

namespace EventKind

theorem parse_eq_ok_iff_ofTag? {s : String} {k : EventKind} :
    parse s = .ok k ↔ ofTag? s = some k := by
  unfold parse
  cases ofTag? s with
  | some k' => simp
  | none => simp

theorem parse_eq_ok_iff {s : String} {k : EventKind} : parse s = .ok k ↔ s = k.tag := by
  rw [parse_eq_ok_iff_ofTag?, ofTag?_eq_some_iff]

/-- A text that is no tag is refused, and the refusal keeps it. -/
theorem parse_eq_error_iff {s : String} {e : UnknownTag} :
    parse s = .error e ↔ e.tag = s ∧ ∀ k : EventKind, s ≠ k.tag := by
  rw [← ofTag?_eq_none_iff]
  unfold parse
  cases ofTag? s with
  | some k => simp
  | none =>
    obtain ⟨tag⟩ := e
    simp [eq_comm]

end EventKind

/-! ### The refusal of a text -/

namespace UnknownTag

/-- A refusal tells the text between quotation marks. -/
theorem exists_textSpelling_message (e : UnknownTag) :
    ∃ escaped,
      e.message = "unrecognised management event tag: \"" ++ String.ofList escaped ++ "\"" ∧
      Quoted.TextSpelling e.tag.toList escaped := by
  obtain ⟨escaped, hquote, hspelling⟩ := Quoted.exists_textSpelling_quoteText e.tag
  have hframe : "unrecognised management event tag: \""
      = "unrecognised management event tag: " ++ "\"" := by
    simp only [String.reduceAppend]
  refine ⟨escaped, ?_, hspelling⟩
  rw [message_eq, hquote, hframe]
  simp only [String.append_assoc]

/-- Different texts are refused differently. -/
theorem message_inj {e e' : UnknownTag} : e.message = e'.message ↔ e = e' := by
  obtain ⟨tag⟩ := e
  obtain ⟨tag'⟩ := e'
  rw [message_eq, message_eq, String.append_right_inj, Quoted.quoteText_inj, UnknownTag.mk.injEq]

end UnknownTag

/-! ### Tags of lines -/

/-- A text is read as a kind exactly if it is the tag of the kind, and any other text is refused.
The refusal keeps the text and tells it between quotation marks, in visible characters and escapes,
from which the text is read back; so refusals of different texts are different.  The tag of a line
is read as the kind of its event, and refused if the event is that of an unknown tag. -/
theorem EventKind.parse_lossless :
    (∀ s k, EventKind.parse s = .ok k ↔ s = k.tag) ∧
    (∀ s k, EventKind.parse s = .ok k ↔ EventKind.ofTag? s = some k) ∧
    (∀ s e, EventKind.parse s = .error e ↔ e.tag = s ∧ ∀ k : EventKind, s ≠ k.tag) ∧
    (∀ e : UnknownTag, ∃ escaped,
      e.message = "unrecognised management event tag: \"" ++ String.ofList escaped ++ "\"" ∧
      Quoted.TextSpelling e.tag.toList escaped ∧ Quoted.text? escaped = some e.tag.toList ∧
      Quoted.MarksEscaped escaped ∧ ∀ c ∈ escaped, Quoted.IsVisible c) ∧
    (∀ e e' : UnknownTag, e.message = e'.message ↔ e = e') ∧
    (∀ line tag body, Event.ofLine line = .unknown tag body →
      EventKind.parse tag = .error ⟨tag⟩) ∧
    ∀ line k, (Event.ofLine line).kind? = some k →
      ∃ tag, (Event.ofLine line).tag? = some tag ∧ EventKind.parse tag = .ok k := by
  refine ⟨fun s k => parse_eq_ok_iff, fun s k => parse_eq_ok_iff_ofTag?,
    fun s e => parse_eq_error_iff, fun e => ?_, fun e e' => UnknownTag.message_inj,
    fun line tag body h => ?_, fun line k h => ?_⟩
  · obtain ⟨escaped, hmessage, hspelling⟩ := e.exists_textSpelling_message
    exact ⟨escaped, hmessage, hspelling, hspelling.text?_eq, hspelling.spelling.marksEscaped,
      hspelling.spelling.isVisible⟩
  · have hsayable := Event.sayable_ofLine line
    rw [h] at hsayable
    exact parse_eq_error_iff.mpr ⟨rfl, hsayable.2⟩
  · obtain ⟨body, hshaped⟩ := Event.exists_shaped_of_kind? h
    refine ⟨k.tag, ?_, parse_eq_ok_iff.mpr rfl⟩
    rw [Event.ofLine_of_shaped hshaped, Event.tag?_ofTagged]

example : (UnknownTag.mk "\\n\n\"'\x7f").message
    = "unrecognised management event tag: \"\\\\n\\n\\\"'\\u\x7b7f\x7d\"" := by decide

/-- A line may have the name of a kind in lower case as its tag, and that is no tag of a kind. -/
theorem EventKind.parse_lossless_lowerCase :
    EventKind.hold.tag = "HOLD" ∧ EventKind.parse "HOLD" = .ok .hold ∧
      Event.ofLine (Utf8.encode "hold:") = .unknown "hold" "" ∧
      EventKind.parse "hold" = .error ⟨"hold"⟩ ∧
      (Event.ofLine (Utf8.encode "HOLD:")).kind? = some .hold ∧
      ∃ tag, (Event.ofLine (Utf8.encode "HOLD:")).tag? = some tag ∧
        EventKind.parse tag = .ok .hold := by
  obtain ⟨hok, -, -, -, -, hunknown, hkind⟩ := EventKind.parse_lossless
  have hlower : Event.ofLine (Utf8.encode "hold:") = .unknown "hold" "" := by decide
  have hupper : (Event.ofLine (Utf8.encode "HOLD:")).kind? = some .hold := by decide
  exact ⟨rfl, (hok _ _).mpr rfl, hlower, hunknown _ _ _ hlower, hupper, hkind _ _ hupper⟩

end TunnelEvents
