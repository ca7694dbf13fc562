import TunnelEvents.Proofs.Json.Document.Sound
import TunnelEvents.Proofs.Json.Syntax
import TunnelEvents.Record.Choice
import TunnelEvents.Record.Event

/-!
# Records are read strictly

Events, kinds and states are read from documents only, and nothing may follow one but white space.
That holds of every record for one reason: it is decoded from a JSON value that the text spells, and
that value is an object, an array or a string, whose text shows where it ends.  After a number more
digits could follow and make another number.

## Main results

* `Json.strictReader_of_isClosed` — a reader that decodes only such values is strict.
* `records_strict` — **events, kinds and states are read strictly.**
-/

namespace TunnelEvents

open Json.Syntax

namespace Json

/-- A reader that decodes only values whose text shows where it ends is strict. -/
theorem strictReader_of_isClosed {α : Type} {decode? : Json → Option α}
    (hclosed : ∀ {v : Json} {a : α}, decode? v = some a → v.IsClosed) :
    StrictReader fun text => (Json.read? text).bind decode? where
  document {text a} h := by
    obtain ⟨v, hv, -⟩ := Option.bind_eq_some_iff.mp h
    exact document_of_spells (read?_eq_some_iff.mp hv).1
  append_iff {text a} h more b := by
    obtain ⟨v, hv, ha⟩ := Option.bind_eq_some_iff.mp h
    have hmore : ∀ w, Json.read? (text ++ more) = some w ↔ Blank more.toList ∧ w = v :=
      fun _ => read?_append_iff hv (hclosed ha)
    rw [space_iff_blank]
    constructor
    · intro hb
      obtain ⟨w, hw, hb⟩ := Option.bind_eq_some_iff.mp hb
      obtain ⟨hblank, rfl⟩ := (hmore w).mp hw
      rw [ha] at hb
      exact ⟨hblank, (Option.some.inj hb).symm⟩
    · rintro ⟨hblank, rfl⟩
      exact Option.bind_eq_some_iff.mpr ⟨v, (hmore v).mpr ⟨hblank, rfl⟩, ha⟩

theorem isClosed_of_choice? {v : Json} {name : String} (h : v.choice? = some name) :
    v.IsClosed := by
  unfold choice? at h
  split at h
  · exact isClosed_string _
  · exact isClosed_object _
  · cases h

end Json

theorem Event.isClosed_of_ofJson? {v : Json} {e : Event} (h : Event.ofJson? v = some e) :
    v.IsClosed := by
  unfold Event.ofJson? at h
  split at h
  · exact Json.isClosed_object _
  · exact Json.isClosed_array _
  · cases h

theorem EventKind.isClosed_of_ofJson? {v : Json} {k : EventKind}
    (h : EventKind.ofJson? v = some k) : v.IsClosed := by
  obtain ⟨name, hname, -⟩ := Option.bind_eq_some_iff.mp h
  exact Json.isClosed_of_choice? hname

theorem ConnectionState.isClosed_of_ofJson? {v : Json} {s : ConnectionState}
    (h : ConnectionState.ofJson? v = some s) : v.IsClosed := by
  unfold ConnectionState.ofJson? at h
  split at h
  · exact Json.isClosed_object _
  · obtain ⟨p, hp, -⟩ := Option.map_eq_some_iff.mp h
    obtain ⟨name, hname, -⟩ := Option.bind_eq_some_iff.mp hp
    exact Json.isClosed_of_choice? hname

/-- A text is read as the JSON value that it spells, if that is in range, and not otherwise.
Events, kinds and states are read from documents only, and nothing but white space may follow one,
which does not change what is read. -/
theorem records_strict :
    (∀ text v, Json.read? text = some v ↔ Json.Spells v text ∧ v.InRange) ∧
      StrictReader Event.read? ∧ StrictReader EventKind.read? ∧
      StrictReader ConnectionState.read? :=
  ⟨fun _ _ => Json.read?_eq_some_iff,
    Json.strictReader_of_isClosed Event.isClosed_of_ofJson?,
    Json.strictReader_of_isClosed EventKind.isClosed_of_ofJson?,
    Json.strictReader_of_isClosed ConnectionState.isClosed_of_ofJson?⟩

/-- The name of a kind is a document, and is read as the kind before the end of a line, but not with
a comma after it. -/
theorem records_strict_hold :
    Document "\"hold\"".toList ∧ EventKind.read? ("\"hold\"" ++ "\r\n") = some .hold ∧
      EventKind.read? ("\"hold\"" ++ ",") = none := by
  have hread : EventKind.read? "\"hold\"" = some .hold := by decide
  have hstrict := records_strict.2.2.1
  have hspace : Space "\r\n".toList := space_iff_blank.mpr (List.all_eq_true.mp rfl)
  have hcomma : ¬ Space ",".toList := by simp [Space]
  refine ⟨hstrict.document hread, (hstrict.append_iff hread "\r\n" .hold).mpr ⟨hspace, rfl⟩, ?_⟩
  refine Option.eq_none_iff_forall_ne_some.mpr fun k hk => ?_
  exact hcomma ((hstrict.append_iff hread "," k).mp hk).1

end TunnelEvents
