import TunnelEvents.Proofs.Json.Document.Sound
import TunnelEvents.Record.Choice
import TunnelEvents.Record.Named

/-!
# Kinds and states are written and read without loss

A name stands for one kind or phase, and `other` is the name of none.  So the values that are read
as a kind or a state can be told from the name alone, and a state that is no phase is never taken
for one, whatever its name.  All these values are shallow and have no numbers, so none of their
texts is refused.

## Main results

* `EventKind.ofJson?_eq_some_iff`, `ConnectionState.ofJson?_eq_some_iff` — the values that are read
  as a kind or a state.
* `Json.losslessCodec_of_simple` — a codec of values without numbers loses nothing.
* `choices_lossless` — **kinds and states are written and read without loss.**
-/

namespace TunnelEvents

/-! ### Names -/

theorem Json.choice?_eq_some_iff {v : Json} {name : String} :
    v.choice? = some name ↔ Json.Names name v := by
  constructor
  · intro h
    unfold choice? at h
    split at h
    · cases h
      exact .string
    · cases h
      exact .object
    · cases h
  · intro h
    cases h with
    | string => rfl
    | object => rfl

theorem EventKind.mem_recordNames (k : EventKind) :
    (k.recordName, k) ∈ EventKind.recordNames := by
  cases k <;> decide

theorem EventKind.ofRecordName?_eq_some_iff {name : String} {k : EventKind} :
    EventKind.ofRecordName? name = some k ↔ (name, k) ∈ EventKind.recordNames :=
  (find?_name_eq_some_iff EventKind.ofRecordName?_recordName).trans
    (mem_table_iff (by decide) EventKind.mem_recordNames).symm

theorem Phase.mem_recordNames (p : Phase) : (p.recordName, p) ∈ Phase.recordNames := by
  cases p <;> decide

theorem Phase.ofRecordName?_eq_some_iff {name : String} {p : Phase} :
    Phase.ofRecordName? name = some p ↔ (name, p) ∈ Phase.recordNames :=
  (find?_name_eq_some_iff Phase.ofRecordName?_recordName).trans
    (mem_table_iff (by decide) Phase.mem_recordNames).symm

/-! ### Values -/

/-- The values that are read as a kind. -/
theorem EventKind.ofJson?_eq_some_iff {v : Json} {k : EventKind} :
    EventKind.ofJson? v = some k ↔ k.IsRecord v := by
  rw [EventKind.ofJson?, Option.bind_eq_some_iff]
  constructor
  · rintro ⟨name, hname, hk⟩
    exact ⟨name, EventKind.ofRecordName?_eq_some_iff.mp hk, Json.choice?_eq_some_iff.mp hname⟩
  · rintro ⟨name, hk, hname⟩
    exact ⟨name, Json.choice?_eq_some_iff.mpr hname, EventKind.ofRecordName?_eq_some_iff.mpr hk⟩

/-- The values that are read as a state. -/
theorem ConnectionState.ofJson?_eq_some_iff {v : Json} {s : ConnectionState} :
    ConnectionState.ofJson? v = some s ↔ s.IsRecord v := by
  constructor
  · intro h
    unfold ConnectionState.ofJson? at h
    split at h
    · cases h
      exact .other
    · obtain ⟨p, hp, rfl⟩ := Option.map_eq_some_iff.mp h
      obtain ⟨name, hname, hp⟩ := Option.bind_eq_some_iff.mp hp
      exact .phase (Phase.ofRecordName?_eq_some_iff.mp hp) (Json.choice?_eq_some_iff.mp hname)
  · intro h
    cases h with
    | other => rfl
    | @phase name p _ hp hname =>
      unfold ConnectionState.ofJson?
      split
      · -- a value with content stands for no name
        cases hname
      · rw [Json.choice?_eq_some_iff.mpr hname, Option.bind_some,
          Phase.ofRecordName?_eq_some_iff.mpr hp, Option.map_some]

/-! ### Texts -/

namespace Json

/-- A value that is shallow and has no numbers. -/
structure Simple (v : Json) : Prop where
  depth_le : v.depth ≤ 1
  not_number : ∀ n, .number n ∉ v.tokens

theorem Simple.inRange {v : Json} (h : v.Simple) : v.InRange where
  depth_le := Nat.le_trans h.depth_le (by decide)
  isFinite n hn := absurd hn (h.not_number n)

theorem simple_string (s : String) : (Json.string s).Simple := by
  refine ⟨Nat.zero_le 1, ?_⟩
  intro n hn
  cases List.mem_singleton.mp hn

/-- An object with one member that is a name or empty. -/
theorem simple_object_singleton {name : String} {v : Json} (h : v = .null ∨ ∃ s, v = .string s) :
    (Json.object [(name, v)]).Simple := by
  rcases h with rfl | ⟨s, rfl⟩
  · exact ⟨Nat.le_refl 1, by simp [tokens, memberTokens]⟩
  · exact ⟨Nat.le_refl 1, by simp [tokens, memberTokens]⟩

theorem Names.simple {name : String} {v : Json} (h : Names name v) : v.Simple := by
  cases h with
  | string => exact simple_string name
  | object => exact simple_object_singleton (.inl rfl)

/-- A codec whose values have no numbers and are not nested loses nothing. -/
theorem losslessCodec_of_simple {α : Type} {encode : α → Json} {decode? : Json → Option α}
    {IsRecord : α → Json → Prop} (hiff : ∀ v a, decode? v = some a ↔ IsRecord a v)
    (hencode : ∀ a, IsRecord a (encode a)) (hsimple : ∀ v a, IsRecord a v → v.Simple) :
    LosslessCodec (fun a => (encode a).render) (fun text => (Json.read? text).bind decode?)
      decode? IsRecord := by
  have htext : ∀ text a, (Json.read? text).bind decode? = some a ↔
      ∃ v, Json.Spells v text ∧ IsRecord a v := by
    intro text a
    rw [Option.bind_eq_some_iff]
    constructor
    · rintro ⟨v, hv, ha⟩
      exact ⟨v, (Json.read?_eq_some_iff.mp hv).1, (hiff v a).mp ha⟩
    · rintro ⟨v, hspells, ha⟩
      exact ⟨v, Json.read?_eq_some_iff.mpr ⟨hspells, (hsimple v a ha).inRange⟩, (hiff v a).mpr ha⟩
  have hround : ∀ a, (Json.read? (encode a).render).bind decode? = some a := by
    intro a
    have hvalid : ∀ n, .number n ∈ (encode a).tokens → n.Valid := fun n hn =>
      absurd hn ((hsimple _ a (hencode a)).not_number n)
    exact (htext _ a).mpr ⟨encode a, spells_render hvalid, hencode a⟩
  refine ⟨hround, fun a b h => ?_, hiff, htext⟩
  have ha := hround a
  rw [show (encode a).render = (encode b).render from h, hround b] at ha
  exact (Option.some.inj ha).symm

end Json

theorem EventKind.isRecord_toJson (k : EventKind) : k.IsRecord k.toJson :=
  ⟨k.recordName, k.mem_recordNames, .string⟩

theorem ConnectionState.isRecord_toJson (s : ConnectionState) : s.IsRecord s.toJson := by
  cases s with
  | phase p => exact .phase p.mem_recordNames .string
  | other name => exact .other

theorem ConnectionState.IsRecord.simple {v : Json} {s : ConnectionState} (h : s.IsRecord v) :
    v.Simple := by
  cases h with
  | phase hp hname => exact hname.simple
  | other => exact Json.simple_object_singleton (.inr ⟨_, rfl⟩)

/-- States and kinds are found again in their records, and different ones have different records.
A text is read as a phase or a kind exactly if it spells its name, or an object whose only member is
that name with nothing in it, and as another state exactly if it spells an object whose only member
is `other` with the name of the state. -/
theorem choices_lossless :
    Json.LosslessCodec ConnectionState.render ConnectionState.read? ConnectionState.ofJson?
        ConnectionState.IsRecord ∧
      Json.LosslessCodec EventKind.render EventKind.read? EventKind.ofJson?
        EventKind.IsRecord := by
  constructor
  · exact Json.losslessCodec_of_simple (fun _ _ => ConnectionState.ofJson?_eq_some_iff)
      ConnectionState.isRecord_toJson fun _ _ h => h.simple
  · exact Json.losslessCodec_of_simple (fun _ _ => EventKind.ofJson?_eq_some_iff)
      EventKind.isRecord_toJson fun _ _ ⟨_, _, hname⟩ => hname.simple

example : ConnectionState.ofJson? (.object [("other", .string "connected")])
    = some (.other "connected") := rfl

end TunnelEvents
