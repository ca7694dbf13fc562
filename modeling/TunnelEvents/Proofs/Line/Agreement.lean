import TunnelEvents.Line.Agreement
import TunnelEvents.Proofs.Line.Shape

/-!
# Which lines say the same event

The tag of a line is found again in its event, and so is everything of the body that the kind of
the tag asks for.  So two lines are read as one event only if they agree, and reading never merges
two tags, or a malformed line with another one.

## Main results

* `Echo.ofBody_eq_iff` — two bodies say the same echo if they are the same or both say nothing.
* `Event.ofBody_eq_iff` — two bodies say the same event of a kind if they agree.
* `Event.ofLine_eq_iff` — **two lines are read as one event exactly if they agree.**
-/

namespace TunnelEvents

/-! ### Echo bodies -/

theorem Echo.ofBody_of_isField {body : String} (h : Fields.IsField body) :
    Echo.ofBody body = ⟨"", ""⟩ := by
  have hcut : cut? ',' body.toList = none := cut?_eq_none_iff.mpr h
  unfold Echo.ofBody
  rw [hcut]

theorem Echo.ofBody_of_void {body : String} (h : Echo.Void body) :
    Echo.ofBody body = ⟨"", ""⟩ := by
  rcases h with h | rfl
  · exact Echo.ofBody_of_isField h
  · rfl

/-- A body with a comma is found again in its echo. -/
theorem Echo.join_ofBody {body : String} (h : ¬ Fields.IsField body) :
    Fields.join [(Echo.ofBody body).rawTimestamp, (Echo.ofBody body).message] = body := by
  unfold Echo.ofBody
  cases hcut : cut? ',' body.toList with
  | none => exact absurd (cut?_eq_none_iff.mp hcut) h
  | some p =>
    obtain ⟨timestamp, message⟩ := p
    obtain ⟨hbody, -⟩ := cut?_eq_some_iff.mp hcut
    have hjoin : Fields.join [String.ofList timestamp, String.ofList message]
        = String.ofList (timestamp ++ ',' :: message) := by
      simp [Fields.join, List.intercalate_cons_cons]
    rw [hjoin, ← hbody, String.ofList_toList]

/-- An echo with neither field is that of a body that says nothing. -/
theorem Echo.void_of_ofBody_eq {body : String} (h : Echo.ofBody body = ⟨"", ""⟩) :
    Echo.Void body := by
  by_cases hfield : Fields.IsField body
  · exact .inl hfield
  · have hjoin := Echo.join_ofBody hfield
    rw [h] at hjoin
    exact .inr hjoin.symm

theorem Echo.ofBody_eq_iff {a b : String} :
    Echo.ofBody a = Echo.ofBody b ↔ a = b ∨ (Echo.Void a ∧ Echo.Void b) := by
  constructor
  · intro h
    by_cases ha : Fields.IsField a
    · have hvoid := Echo.ofBody_of_isField ha
      exact .inr ⟨.inl ha, Echo.void_of_ofBody_eq (h ▸ hvoid)⟩
    · by_cases hb : Fields.IsField b
      · have hvoid := Echo.ofBody_of_isField hb
        exact .inr ⟨Echo.void_of_ofBody_eq (h.trans hvoid), .inl hb⟩
      · -- where both have a comma, each is found again in the one echo
        left
        rw [← Echo.join_ofBody ha, ← Echo.join_ofBody hb, h]
  · rintro (rfl | ⟨ha, hb⟩)
    · rfl
    · rw [Echo.ofBody_of_void ha, Echo.ofBody_of_void hb]

/-! ### Bodies of a kind -/

theorem Fields.textsAgree_iff {i : Nat} {a b : String} :
    TextsAgree i a b ↔ textAt (split a) i = textAt (split b) i := by
  rw [TextsAgree, textAt_eq, textAt_eq]

theorem Fields.countersAgree_iff {i : Nat} {a b : String} :
    CountersAgree i a b ↔ counterAt (split a) i = counterAt (split b) i := by
  rw [CountersAgree, counterAt, counterAt]

theorem StateReport.ofBody_eq_iff {a b : String} :
    StateReport.ofBody a = StateReport.ofBody b ↔ ∀ i < 5, Fields.TextsAgree i a b := by
  simp only [StateReport.ofBody, StateReport.mk.injEq, Fields.textsAgree_iff]
  constructor
  · rintro ⟨h0, h1, h2, h3, h4⟩ i hi
    match i, hi with
    | 0, _ => exact h0
    | 1, _ => exact h1
    | 2, _ => exact h2
    | 3, _ => exact h3
    | 4, _ => exact h4
  · intro h
    exact ⟨h 0 (by decide), h 1 (by decide), h 2 (by decide), h 3 (by decide), h 4 (by decide)⟩

theorem ByteCount.ofBody_eq_iff {a b : String} :
    ByteCount.ofBody a = ByteCount.ofBody b ↔ ∀ i < 2, Fields.CountersAgree i a b := by
  simp only [ByteCount.ofBody, ByteCount.mk.injEq, Fields.countersAgree_iff, true_and]
  constructor
  · rintro ⟨h0, h1⟩ i hi
    match i, hi with
    | 0, _ => exact h0
    | 1, _ => exact h1
  · intro h
    exact ⟨h 0 (by decide), h 1 (by decide)⟩

theorem ByteCount.ofClientBody_eq_iff {a b : String} :
    ByteCount.ofClientBody a = ByteCount.ofClientBody b ↔
      Fields.TextsAgree 0 a b ∧ Fields.CountersAgree 1 a b ∧ Fields.CountersAgree 2 a b := by
  simp only [ByteCount.ofClientBody, ByteCount.mk.injEq, Fields.textsAgree_iff,
    Fields.countersAgree_iff, true_and]

/-- Two bodies say the same event of a kind exactly if they agree. -/
theorem Event.ofBody_eq_iff (k : EventKind) {a b : String} :
    Event.ofBody k a = Event.ofBody k b ↔ k.BodiesAgree a b := by
  cases k with
  | hold => exact Event.hold.injEq a b ▸ Iff.rfl
  | echo => exact Event.echo.injEq _ _ ▸ Echo.ofBody_eq_iff
  | state => exact Event.state.injEq _ _ ▸ StateReport.ofBody_eq_iff
  | byteCount => exact Event.byteCount.injEq _ _ ▸ ByteCount.ofBody_eq_iff
  | byteCountClient => exact Event.byteCount.injEq _ _ ▸ ByteCount.ofClientBody_eq_iff
  | password => exact Event.password.injEq a b ▸ Iff.rfl
  | fatal => exact Event.fatal.injEq a b ▸ Iff.rfl

/-- A counter may be spelled with zeros in front, and one that is none is 0. -/
example : EventKind.byteCount.BodiesAgree "7" "007,x,9" := by decide

/-! ### Lines -/

/-- Two bodies after one tag say the same event exactly if they agree. -/
theorem Event.ofTagged_eq_iff {tag a b : String} :
    Event.ofTagged tag a = Event.ofTagged tag b ↔ BodiesAgree tag a b := by
  unfold Event.ofTagged BodiesAgree
  cases EventKind.ofTag? tag with
  | some k => exact Event.ofBody_eq_iff k
  | none => simp

/-- Two lines are read as one event exactly if they agree. -/
theorem Event.ofLine_eq_iff (a b : Bytes) :
    Event.ofLine a = Event.ofLine b ↔ LinesAgree a b := by
  constructor
  · intro h
    -- the tags are the same, or there is none on either side
    have htag := congrArg Event.tag? h
    by_cases ha : ∃ word body, Shaped a word body
    · obtain ⟨wordA, bodyA, ha⟩ := ha
      by_cases hb : ∃ word body, Shaped b word body
      · obtain ⟨wordB, bodyB, hb⟩ := hb
        rw [Event.ofLine_of_shaped ha, Event.ofLine_of_shaped hb] at h htag
        rw [Event.tag?_ofTagged, Event.tag?_ofTagged] at htag
        obtain rfl : wordA = wordB := Option.some.inj htag
        exact .inr ⟨wordA, bodyA, bodyB, ha, hb, Event.ofTagged_eq_iff.mp h⟩
      · rw [Event.ofLine_of_shaped ha, Event.tag?_ofTagged,
          Event.ofLine_of_not_shaped fun word body hs => hb ⟨word, body, hs⟩] at htag
        cases htag
    · rw [Event.ofLine_of_not_shaped fun word body hs => ha ⟨word, body, hs⟩] at h htag
      by_cases hb : ∃ word body, Shaped b word body
      · obtain ⟨wordB, bodyB, hb⟩ := hb
        rw [Event.ofLine_of_shaped hb, Event.tag?_ofTagged] at htag
        cases htag
      · rw [Event.ofLine_of_not_shaped fun word body hs => hb ⟨word, body, hs⟩] at h
        exact .inl (Event.malformed.inj h)
  · rintro (rfl | ⟨word, bodyA, bodyB, ha, hb, hagree⟩)
    · rfl
    · rw [Event.ofLine_of_shaped ha, Event.ofLine_of_shaped hb]
      exact Event.ofTagged_eq_iff.mpr hagree

end TunnelEvents
