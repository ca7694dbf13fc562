import TunnelEvents.Proofs.Line.Agreement
import TunnelEvents.Proofs.Line.Timestamps
import TunnelEvents.Proofs.Log

/-!
# The fields of an echo

An echo is divided at its first comma and a change of state at every comma.  The two divisions begin
alike: the field before the first comma is the instant of both, and the message of an echo is the
fields after it, with the commas that stood between them.  Only a body without a comma is told
apart: a change of state has all of it as its first field, and an echo drops it.

## Main results

* `Fields.exists_append_comma` — a text with a comma is divided at the first one.
* `Event.logOfLine_of_kind_echo` — an echo leaves no trace.
* `Event.ofLine_echo` — **the fields of an echo are those of a division at every comma.**
-/

namespace TunnelEvents

/-! ### Bodies -/

/-- A text with a comma is a field, the comma, and what follows. -/
theorem Fields.exists_append_comma {body : String} (h : ¬ Fields.IsField body) :
    ∃ f rest, Fields.IsField f ∧ body = f ++ "," ++ rest := by
  rw [Fields.IsField, Decidable.not_not] at h
  obtain ⟨before, after, hbody, hbefore⟩ := List.eq_append_cons_of_mem h
  refine ⟨String.ofList before, String.ofList after, ?_, String.toList_inj.mp ?_⟩
  · rwa [Fields.IsField, String.toList_ofList]
  · simp only [hbody, String.toList_append, String.toList_ofList, List.append_assoc]
    rfl

theorem StateReport.rawTimestamp_ofBody_of_isField {body : String} (h : Fields.IsField body) :
    (StateReport.ofBody body).rawTimestamp = body := by
  rw [StateReport.ofBody, Fields.split_of_isField h, Fields.textAt_cons_zero]

/-! ### Traces -/

/-- An echo leaves no trace. -/
theorem Event.logOfLine_of_kind_echo {line : Bytes} (h : (Event.ofLine line).kind? = some .echo) :
    logOfLine line = [] := by
  obtain ⟨body, hshaped⟩ := Event.exists_shaped_of_kind? h
  rw [logOfLine_of_shaped hshaped, Line.log, EventKind.ofTag?_tag]
  rfl

/-! ### Lines -/

/-- If the body of an echo has two fields or more, the first one is the field of its instant, and
the others, with commas between them, are the message.  So the body is found again in the echo, and
the instant is that of a change of state with the same body.  If the body has one field, the echo
has none of it, and the change of state has it as the field of the instant.  No echo leaves a
trace. -/
theorem Event.ofLine_echo :
    (∀ body : Bytes,
      (∃ f g rest e r, Fields.split (Utf8.decodeLossy body) = f :: g :: rest ∧
        Event.ofLine (Utf8.encode "ECHO:" ++ body) = .echo e ∧
        Event.ofLine (Utf8.encode "STATE:" ++ body) = .state r ∧
        e.rawTimestamp = f ∧ e.message = Fields.join (g :: rest) ∧
        e.rawTimestamp ++ "," ++ e.message = Utf8.decodeLossy body ∧
        r.rawTimestamp = e.rawTimestamp ∧ r.instant? = e.instant?) ∨
      ∃ f r, Fields.split (Utf8.decodeLossy body) = [f] ∧
        Event.ofLine (Utf8.encode "ECHO:" ++ body) = .echo ⟨"", ""⟩ ∧
        Event.ofLine (Utf8.encode "STATE:" ++ body) = .state r ∧ r.rawTimestamp = f) ∧
    ∀ line e,
      (Event.ofLine line = .echo e → logOfLine line = []) ∧
      (Event.ofNotification line = .echo e → logOfNotification line = []) := by
  refine ⟨fun body => ?_, fun line e => ⟨fun h => ?_, fun h => ?_⟩⟩
  · have hecho := Event.ofLine_tag_append .echo body
    have hstate := Event.ofLine_tag_append .state body
    by_cases hfield : Fields.IsField (Utf8.decodeLossy body)
    · refine .inr ⟨_, _, Fields.split_of_isField hfield, ?_, hstate, ?_⟩
      · rw [← Echo.ofBody_of_isField hfield]
        exact hecho
      · exact StateReport.rawTimestamp_ofBody_of_isField hfield
    · -- the message is joined from the fields that it is divided into
      obtain ⟨f, message, hf, hbody⟩ := Fields.exists_append_comma hfield
      obtain ⟨g, rest, hmessage⟩ := List.exists_cons_of_ne_nil (Fields.split_ne_nil message)
      have hjoin : Fields.join (g :: rest) = message := hmessage ▸ Fields.join_split message
      have hfirst := StateReport.rawTimestamp_ofBody_append_comma hf message
      rw [hbody] at hecho hstate ⊢
      refine .inl ⟨f, g, rest, ⟨f, message⟩, _, ?_, ?_, hstate, rfl, hjoin.symm, rfl, hfirst, ?_⟩
      · rw [Fields.split_append_comma hf, hmessage]
      · rw [← Echo.ofBody_append_comma hf]
        exact hecho
      · rw [StateReport.instant?, Echo.instant?, hfirst]
  · exact Event.logOfLine_of_kind_echo (congrArg Event.kind? h)
  · exact Event.logOfLine_of_kind_echo (congrArg Event.kind? h)

/-- The message begins with a comma, and the field before it ends in a cut-off character. -/
theorem Event.ofLine_echo_illFormed :
    Event.ofLine (Utf8.encode "ECHO:" ++ [0xE2, 0x82, 0x2C, 0x2C, 0x61])
        = .echo ⟨"\uFFFD", ",a"⟩ ∧
      (∃ r, Event.ofLine (Utf8.encode "STATE:" ++ [0xE2, 0x82, 0x2C, 0x2C, 0x61]) = .state r ∧
        r.rawTimestamp = "\uFFFD") ∧
      logOfLine (Utf8.encode "ECHO:" ++ [0xE2, 0x82, 0x2C, 0x2C, 0x61]) = [] := by
  obtain ⟨hfields, hlog⟩ := Event.ofLine_echo
  have hread : Event.ofLine (Utf8.encode "ECHO:" ++ [0xE2, 0x82, 0x2C, 0x2C, 0x61])
      = .echo ⟨"\uFFFD", ",a"⟩ := by decide
  refine ⟨hread, ?_, (hlog _ _).1 hread⟩
  obtain ⟨f, g, rest, e, r, -, hecho, hstate, -, -, -, hr, -⟩ | ⟨f, r, -, hecho, -⟩ :=
    hfields [0xE2, 0x82, 0x2C, 0x2C, 0x61]
  · rw [hread, Event.echo.injEq] at hecho
    rw [← hecho] at hr
    exact ⟨r, hstate, hr⟩
  · rw [hread] at hecho
    exact absurd hecho (by decide)

end TunnelEvents
