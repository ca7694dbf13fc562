import TunnelEvents.Proofs.Line.Shape

/-!
# The events that lines say

Not every event is said by a line: a field that ends at a comma holds none, and a tag without a
kind is not the tag of one.  These conditions, one for each form of event, are all there are.  An
event that meets them is said by its canonical line.

## Main results

* `Event.sayable_ofLine` — the event of a line meets the conditions.
* `Event.ofLine_canonicalLine` — an event that meets them is the event of its canonical line.
* `Event.exists_ofLine_eq_iff` — **the events of lines are those that meet the conditions.**
-/

namespace TunnelEvents

/-! ### From lines to events -/

theorem Echo.isField_rawTimestamp_ofBody (body : String) :
    Fields.IsField (Echo.ofBody body).rawTimestamp := by
  unfold Echo.ofBody
  cases h : cut? ',' body.toList with
  | none => exact Fields.isField_empty
  | some p =>
    rw [Fields.IsField]
    show ',' ∉ (String.ofList p.1).toList
    rw [String.toList_ofList]
    exact (cut?_eq_some_iff.mp h).2

/-- The event of a kind and a body meets the conditions of that kind. -/
theorem Event.sayable_ofBody (k : EventKind) (body : String) : (Event.ofBody k body).Sayable := by
  cases k with
  | hold => trivial
  | echo => exact Echo.isField_rawTimestamp_ofBody body
  | state =>
    have hfield := Fields.isField_textAt_split body
    simp only [Event.ofBody, Event.Sayable, StateReport.ofBody, List.forall_mem_cons]
    exact ⟨hfield 0, hfield 1, hfield 2, hfield 3, hfield 4, List.forall_mem_nil _⟩
  | byteCount => exact rfl
  | byteCountClient => exact Fields.isField_textAt_split body 0
  | password => trivial
  | fatal => trivial

/-- The event of a line meets the conditions. -/
theorem Event.sayable_ofLine (line : Bytes) : (Event.ofLine line).Sayable := by
  rcases shaped_or_not_shaped line with ⟨word, body, hshaped⟩ | hnot
  · rw [Event.ofLine_of_shaped hshaped]
    cases hk : EventKind.ofTag? word with
    | none =>
      rw [EventKind.ofTag?_eq_none_iff] at hk
      rw [Event.ofTagged_of_ne hk]
      exact ⟨hshaped.isWord, hk⟩
    | some k =>
      obtain rfl := EventKind.ofTag?_eq_some_iff.mp hk
      rw [Event.ofTagged_tag]
      exact Event.sayable_ofBody k _
  · rw [Event.ofLine_of_not_shaped hnot]
    exact hnot

/-! ### From events to lines -/

theorem Echo.ofBody_join {e : Echo} (h : Fields.IsField e.rawTimestamp) :
    Echo.ofBody (Fields.join [e.rawTimestamp, e.message]) = e := by
  unfold Echo.ofBody Fields.join
  have hcut : cut? ',' (e.rawTimestamp.toList ++ ',' :: e.message.toList)
      = some (e.rawTimestamp.toList, e.message.toList) := cut?_append_cons h _
  simp only [String.toList_ofList, List.map_cons, List.map_nil, List.intercalate_cons_cons,
    List.intercalate_singleton, List.append_assoc, List.singleton_append, hcut,
    String.ofList_toList]

theorem StateReport.ofBody_join {r : StateReport}
    (h : ∀ f ∈ [r.rawTimestamp, r.stateName, r.description, r.localAddress, r.remoteAddress],
      Fields.IsField f) :
    StateReport.ofBody (Fields.join
      [r.rawTimestamp, r.stateName, r.description, r.localAddress, r.remoteAddress]) = r := by
  unfold StateReport.ofBody
  rw [Fields.split_join h (List.cons_ne_nil _ _)]
  rfl

theorem ByteCount.ofBody_join (bytesIn bytesOut : UInt64) :
    ByteCount.ofBody (Fields.join [bytesIn.toNat.repr, bytesOut.toNat.repr])
      = ⟨false, "", bytesIn, bytesOut⟩ := by
  have hfields : ∀ f ∈ [bytesIn.toNat.repr, bytesOut.toNat.repr], Fields.IsField f := by
    rw [List.forall_mem_cons, List.forall_mem_singleton]
    exact ⟨Fields.isField_repr _, Fields.isField_repr _⟩
  unfold ByteCount.ofBody
  rw [Fields.split_join hfields (List.cons_ne_nil _ _)]
  simp [Fields.counterAt]

theorem ByteCount.ofClientBody_join {clientId : String} (h : Fields.IsField clientId)
    (bytesIn bytesOut : UInt64) :
    ByteCount.ofClientBody
        (Fields.join [clientId, bytesIn.toNat.repr, bytesOut.toNat.repr])
      = ⟨true, clientId, bytesIn, bytesOut⟩ := by
  have hfields : ∀ f ∈ [clientId, bytesIn.toNat.repr, bytesOut.toNat.repr],
      Fields.IsField f := by
    rw [List.forall_mem_cons, List.forall_mem_cons, List.forall_mem_singleton]
    exact ⟨h, Fields.isField_repr _, Fields.isField_repr _⟩
  unfold ByteCount.ofClientBody
  rw [Fields.split_join hfields (List.cons_ne_nil _ _)]
  simp [Fields.counterAt, Fields.textAt]

/-- The canonical body of an event of a kind is read back as the event. -/
theorem Event.ofBody_canonicalBody {e : Event} {k : EventKind} (hk : e.kind? = some k)
    (h : e.Sayable) : Event.ofBody k e.canonicalBody = e := by
  cases e with
  | malformed raw => cases hk
  | unknown tag body => cases hk
  | hold reason =>
    cases hk
    rfl
  | echo e =>
    cases hk
    exact congrArg Event.echo (Echo.ofBody_join h)
  | state r =>
    cases hk
    exact congrArg Event.state (StateReport.ofBody_join h)
  | byteCount c =>
    obtain ⟨perClient, clientId, bytesIn, bytesOut⟩ := c
    cases perClient with
    | false =>
      cases hk
      obtain rfl : clientId = "" := h
      exact congrArg Event.byteCount (ByteCount.ofBody_join bytesIn bytesOut)
    | true =>
      cases hk
      exact congrArg Event.byteCount (ByteCount.ofClientBody_join h bytesIn bytesOut)
  | password message =>
    cases hk
    rfl
  | fatal message =>
    cases hk
    rfl

/-- A line made of a word, a colon and a body in UTF-8 is shaped. -/
theorem shaped_encode {word : String} (h : IsWord word) (body : String) :
    Shaped (Utf8.encode (word ++ ":" ++ body)) word (Utf8.encode body) where
  isWord := h
  line_eq := by
    rw [Utf8.encode_append, Utf8.encode_append, List.append_assoc]
    rfl

/-- An event of a kind is that of its canonical line. -/
theorem Event.ofLine_canonicalLine_of_kind {e : Event} {k : EventKind} (hk : e.kind? = some k)
    (h : e.Sayable) : Event.ofLine e.canonicalLine = e := by
  -- the tag of the event is that of its kind, also for the two kinds of counters
  have hline : e.canonicalLine = Utf8.encode (k.tag ++ ":" ++ e.canonicalBody) := by
    cases e <;> cases hk <;> rfl
  rw [hline, Event.ofLine_of_shaped (shaped_encode (isWord_tag k) _), Event.ofTagged_tag,
    Utf8.decodeLossy_encode, Event.ofBody_canonicalBody hk h]

/-- An event that meets the conditions is the event of its canonical line. -/
theorem Event.ofLine_canonicalLine {e : Event} (h : e.Sayable) :
    Event.ofLine e.canonicalLine = e := by
  cases hk : e.kind? with
  | some k => exact Event.ofLine_canonicalLine_of_kind hk h
  | none =>
    cases e with
    | malformed raw => exact Event.ofLine_of_not_shaped h
    | unknown tag body =>
      obtain ⟨hword, htag⟩ := h
      show Event.ofLine (Utf8.encode (tag ++ ":" ++ body)) = _
      rw [Event.ofLine_of_shaped (shaped_encode hword body), Utf8.decodeLossy_encode,
        Event.ofTagged_of_ne htag]
    | hold | echo | state | byteCount | password | fatal => cases hk

/-- The events of lines are those that meet the conditions of their form, and each of these is the
event of its canonical line. -/
theorem Event.exists_ofLine_eq_iff (e : Event) :
    ((∃ line, Event.ofLine line = e) ↔ e.Sayable) ∧
      (Event.ofLine e.canonicalLine = e ↔ e.Sayable) := by
  have hsound : ∀ line, Event.ofLine line = e → e.Sayable := by
    rintro line rfl
    exact Event.sayable_ofLine line
  refine ⟨⟨?_, fun h => ⟨_, Event.ofLine_canonicalLine h⟩⟩, ⟨hsound _, Event.ofLine_canonicalLine⟩⟩
  rintro ⟨line, hline⟩
  exact hsound line hline

end TunnelEvents
