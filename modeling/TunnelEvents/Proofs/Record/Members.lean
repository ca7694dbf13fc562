import TunnelEvents.Proofs.Json.Document
import TunnelEvents.Record.Members

/-!
# Objects that are read as an event

An object is read as an event exactly if it is a record of the event.  So it makes no difference in
which order the members stand and which members there are besides, and no value of a field is
refused for the value of another.

## Main results

* `Json.only?_eq_some_iff` — when a name has one member.
* `EventForm.build?_eq_some_iff` — the values from which an event is built.
* `Event.ofJson?_object_eq_some_iff` — **an object is read as the event that it is a record of.**
-/

namespace TunnelEvents

namespace Json

/-! ### Values of fields -/

theorem string?_eq_some_iff {v : Json} {s : String} : v.string? = some s ↔ v = .string s := by
  cases v <;> simp [string?]

theorem bool?_eq_some_iff {v : Json} {b : Bool} : v.bool? = some b ↔ v = .bool b := by
  cases v <;> simp [bool?]

theorem Numeral.natural?_eq_some_iff {n : Numeral} {k : Nat} :
    n.natural? = some k ↔
      ∃ digits, n = ⟨false, digits, none, none⟩ ∧ Nat.ofDigitChars 10 digits 0 = k := by
  obtain ⟨negative, whole, fraction, exponent⟩ := n
  constructor
  · intro h
    unfold natural? at h
    split at h
    · next digits heq => exact ⟨digits, heq, Option.some.inj h⟩
    · cases h
  · rintro ⟨digits, heq, rfl⟩
    rw [heq]
    rfl

theorem naturalBelow?_eq_some_iff {v : Json} {bound k : Nat} :
    v.naturalBelow? bound = some k ↔ v.IsNatural k ∧ k < bound := by
  cases v with
  | number n =>
    simp only [naturalBelow?, Option.filter_eq_some_iff, decide_eq_true_iff,
      Numeral.natural?_eq_some_iff, IsNatural, number.injEq]
  | _ => simp [naturalBelow?, IsNatural]

theorem uint64?_eq_some_iff {v : Json} {n : UInt64} :
    v.uint64? = some n ↔ v.IsNatural n.toNat := by
  simp only [uint64?, Option.map_eq_some_iff, naturalBelow?_eq_some_iff]
  constructor
  · rintro ⟨k, ⟨hk, hlt⟩, rfl⟩
    rwa [Nat.toUInt64, UInt64.toNat_ofNat_of_lt' hlt]
  · intro h
    exact ⟨n.toNat, ⟨h, n.toNat_lt⟩, UInt64.ofNat_toNat⟩

theorem uint8?_eq_some_iff {v : Json} {b : UInt8} : v.uint8? = some b ↔ v.IsNatural b.toNat := by
  simp only [uint8?, Option.map_eq_some_iff, naturalBelow?_eq_some_iff]
  constructor
  · rintro ⟨k, ⟨hk, hlt⟩, rfl⟩
    rwa [Nat.toUInt8, UInt8.toNat_ofNat_of_lt' hlt]
  · intro h
    exact ⟨b.toNat, ⟨h, b.toNat_lt⟩, UInt8.ofNat_toNat⟩

/-- A list is read item by item. -/
theorem mapM_eq_some_iff {α β : Type} {f : α → Option β} {as : List α} {bs : List β} :
    as.mapM f = some bs ↔ List.Forall₂ (fun a b => f a = some b) as bs := by
  induction as generalizing bs with
  | nil => simp [List.forall₂_nil_left_iff, eq_comm]
  | cons a as ih =>
    simp only [List.mapM_cons, Option.bind_eq_bind, Option.bind_eq_some_iff, Option.pure_def,
      Option.some.injEq, ih, List.forall₂_cons_left_iff]
    constructor
    · rintro ⟨b, hb, bs, hbs, rfl⟩
      exact ⟨b, bs, hb, hbs, rfl⟩
    · rintro ⟨b, bs, hb, hbs, rfl⟩
      exact ⟨b, hb, bs, hbs, rfl⟩

/-- Two relations of a list to one list of values are two of each entry to one value. -/
theorem exists_forall₂_iff {α β : Type} {as : List α} {p q : α → β → Prop} :
    (∃ bs, List.Forall₂ p as bs ∧ List.Forall₂ q as bs) ↔ ∀ a ∈ as, ∃ b, p a b ∧ q a b := by
  induction as with
  | nil => simp
  | cons a as ih =>
    rw [List.forall_mem_cons, ← ih]
    constructor
    · rintro ⟨_, _ | ⟨hp, hps⟩, _ | ⟨hq, hqs⟩⟩
      exact ⟨⟨_, hp, hq⟩, _, hps, hqs⟩
    · rintro ⟨⟨b, hp, hq⟩, bs, hps, hqs⟩
      exact ⟨b :: bs, .cons hp hps, .cons hq hqs⟩

theorem bytes?_eq_some_iff {v : Json} {raw : Bytes} : bytes? v = some raw ↔ v.IsBytes raw := by
  cases v with
  | array items =>
    rw [bytes?, mapM_eq_some_iff]
    simp only [uint8?_eq_some_iff]
    exact ⟨.array, fun h => by cases h with | array h => exact h⟩
  | string s =>
    rw [bytes?, Option.some.injEq]
    exact ⟨.string, fun h => by cases h with | string h => exact h⟩
  | _ =>
    constructor
    · intro h
      cases h
    · intro h
      cases h

/-! ### Members -/

/-- A name has one member exactly if it stands once among the names. -/
theorem only?_eq_some_iff {name : String} {members : List (String × Json)} {v : Json} :
    only? name members = some v ↔ OnlyMember name v members := by
  have hlength : (members.map Prod.fst).count name
      = (members.filter fun m => m.1 = name).length := by
    rw [List.count_eq_countP, List.countP_map, List.countP_eq_length_filter]
    rfl
  constructor
  · intro h
    unfold only? at h
    split at h
    · next m hm =>
      have hmem : m ∈ members.filter fun m => m.1 = name := by
        rw [hm]
        exact List.mem_singleton_self m
      obtain ⟨hmem, hname⟩ := List.mem_filter.mp hmem
      refine ⟨by rw [hlength, hm, List.length_singleton], ?_⟩
      rwa [← Option.some.inj h, ← of_decide_eq_true hname]
    · cases h
  · rintro ⟨hcount, hmem⟩
    rw [hlength, List.length_eq_one_iff] at hcount
    obtain ⟨m, hm⟩ := hcount
    have hv : (name, v) ∈ members.filter fun m => m.1 = name :=
      List.mem_filter.mpr ⟨hmem, decide_eq_true rfl⟩
    rw [hm, List.mem_singleton] at hv
    rw [only?, hm, ← hv]

/-- The order of the members makes no difference. -/
theorem OnlyMember.perm {name : String} {v : Json} {members members' : List (String × Json)}
    (hperm : members.Perm members') (h : OnlyMember name v members) :
    OnlyMember name v members' where
  count_eq := by rw [← (hperm.map Prod.fst).count_eq, h.count_eq]
  mem := hperm.mem_iff.mp h.mem

/-- Neither do members of other names. -/
theorem onlyMember_append_iff {name : String} {v : Json} {others members : List (String × Json)}
    (h : ∀ m ∈ others, m.1 ≠ name) :
    OnlyMember name v (others ++ members) ↔ OnlyMember name v members := by
  have hcount : (others.map Prod.fst).count name = 0 := by
    rw [List.count_eq_zero, List.mem_map]
    rintro ⟨m, hm, hname⟩
    exact h m hm hname
  have hmem : (name, v) ∉ others := fun hm => h _ hm rfl
  constructor
  · rintro ⟨hone, hv⟩
    rw [List.map_append, List.count_append, hcount, Nat.zero_add] at hone
    exact ⟨hone, (List.mem_append.mp hv).resolve_left hmem⟩
  · rintro ⟨hone, hv⟩
    refine ⟨?_, List.mem_append_right _ hv⟩
    rw [List.map_append, List.count_append, hcount, Nat.zero_add, hone]

end Json

/-! ### Forms -/

namespace EventForm

theorem ofName?_eq_some_iff {name : String} {f : EventForm} :
    ofName? name = some f ↔ name = f.name :=
  find?_name_eq_some_iff ofName?_name

theorem ofJson?_eq_some_iff {v : Json} {f : EventForm} :
    ofJson? v = some f ↔ v = .string f.name := by
  simp only [ofJson?, Option.bind_eq_some_iff, Json.string?_eq_some_iff, ofName?_eq_some_iff]
  constructor
  · rintro ⟨s, rfl, rfl⟩
    rfl
  · rintro rfl
    exact ⟨_, rfl, rfl⟩

@[simp] theorem ofJson?_name (f : EventForm) : ofJson? (.string f.name) = some f :=
  ofJson?_eq_some_iff.mpr rfl

/-- What is built of a form has that form, and the values stand for its fields. -/
theorem fields_of_build?_eq_some {f : EventForm} {values : List Json} {e : Event}
    (h : f.build? values = some e) :
    e.form = f ∧ List.Forall₂ (fun field v => field.2 v) e.recordFields values := by
  unfold build? at h
  split at h
  case h_9 => cases h
  all_goals simp only [Option.map_eq_some_iff, Option.bind_eq_bind, Option.bind_eq_some_iff,
    Option.pure_def, Option.some.injEq, Json.string?_eq_some_iff, Json.bool?_eq_some_iff,
    Json.uint64?_eq_some_iff, Json.bytes?_eq_some_iff] at h
  · obtain ⟨raw, hraw, rfl⟩ := h
    exact ⟨rfl, .cons hraw .nil⟩
  · obtain ⟨tag, htag, body, hbody, rfl⟩ := h
    exact ⟨rfl, .cons htag (.cons hbody .nil)⟩
  · obtain ⟨reason, hreason, rfl⟩ := h
    exact ⟨rfl, .cons hreason .nil⟩
  · obtain ⟨timestamp, htimestamp, message, hmessage, rfl⟩ := h
    exact ⟨rfl, .cons htimestamp (.cons hmessage .nil)⟩
  · obtain ⟨timestamp, h0, stateName, h1, description, h2, here, h3, there, h4, rfl⟩ := h
    exact ⟨rfl, .cons h0 (.cons h1 (.cons h2 (.cons h3 (.cons h4 .nil))))⟩
  · obtain ⟨perClient, h0, clientId, h1, bytesIn, h2, bytesOut, h3, rfl⟩ := h
    exact ⟨rfl, .cons h0 (.cons h1 (.cons h2 (.cons h3 .nil)))⟩
  · obtain ⟨message, hmessage, rfl⟩ := h
    exact ⟨rfl, .cons hmessage .nil⟩
  · obtain ⟨message, hmessage, rfl⟩ := h
    exact ⟨rfl, .cons hmessage .nil⟩

/-- Values that stand for the fields of an event build the event. -/
theorem build?_of_fields {values : List Json} {e : Event}
    (h : List.Forall₂ (fun field v => field.2 v) e.recordFields values) :
    e.form.build? values = some e := by
  -- the values of text fields are fixed by the event
  cases e with
  | malformed raw =>
    obtain _ | ⟨hraw, _ | _⟩ := h
    simp only [Event.form, build?, Json.bytes?_eq_some_iff.mpr hraw, Option.map_some]
  | unknown tag body =>
    obtain _ | ⟨rfl, _ | ⟨rfl, _ | _⟩⟩ := h
    rfl
  | hold reason =>
    obtain _ | ⟨rfl, _ | _⟩ := h
    rfl
  | echo e =>
    obtain _ | ⟨rfl, _ | ⟨rfl, _ | _⟩⟩ := h
    rfl
  | state r =>
    obtain _ | ⟨rfl, _ | ⟨rfl, _ | ⟨rfl, _ | ⟨rfl, _ | ⟨rfl, _ | _⟩⟩⟩⟩⟩ := h
    rfl
  | byteCount c =>
    obtain _ | ⟨h0, _ | ⟨h1, _ | ⟨h2, _ | ⟨h3, _ | _⟩⟩⟩⟩ := h
    simp only [Event.form, build?, Json.bool?_eq_some_iff.mpr h0,
      Json.string?_eq_some_iff.mpr h1, Json.uint64?_eq_some_iff.mpr h2,
      Json.uint64?_eq_some_iff.mpr h3, Option.bind_eq_bind, Option.bind_some, Option.pure_def]
  | password message =>
    obtain _ | ⟨rfl, _ | _⟩ := h
    rfl
  | fatal message =>
    obtain _ | ⟨rfl, _ | _⟩ := h
    rfl

/-- An event is built from values that stand for its fields. -/
theorem build?_eq_some_iff {f : EventForm} {values : List Json} {e : Event} :
    f.build? values = some e ↔
      e.form = f ∧ List.Forall₂ (fun field v => field.2 v) e.recordFields values := by
  constructor
  · exact fields_of_build?_eq_some
  · rintro ⟨rfl, h⟩
    exact build?_of_fields h

end EventForm

/-! ### Objects -/

namespace Event

theorem map_fst_recordFields (e : Event) : e.recordFields.map Prod.fst = e.form.fieldNames := by
  cases e <;> rfl

theorem recordType_eq (e : Event) : e.recordType = e.form.name := by
  cases e <;> rfl

/-- The fields of a form are found among the members. -/
theorem ofMembers?_eq_some_iff {f : EventForm} {members : List (String × Json)} {e : Event} :
    f.ofMembers? members = some e ↔
      e.form = f ∧
        ∀ field ∈ e.recordFields, ∃ v, Json.OnlyMember field.1 v members ∧ field.2 v := by
  rw [← Json.exists_forall₂_iff]
  simp only [EventForm.ofMembers?, Option.bind_eq_some_iff, Json.mapM_eq_some_iff,
    EventForm.build?_eq_some_iff, Json.only?_eq_some_iff]
  constructor
  · rintro ⟨values, hvalues, rfl, hfields⟩
    rw [← map_fst_recordFields, List.forall₂_map_left_iff] at hvalues
    exact ⟨rfl, values, hvalues, hfields⟩
  · rintro ⟨rfl, values, hvalues, hfields⟩
    refine ⟨values, ?_, rfl, hfields⟩
    rw [← map_fst_recordFields, List.forall₂_map_left_iff]
    exact hvalues

/-- An object is read as the event that it is a record of. -/
theorem ofJson?_object {members : List (String × Json)} {e : Event} :
    ofJson? (.object members) = some e ↔ e.IsRecord members := by
  simp only [ofJson?, Option.bind_eq_bind, Option.bind_eq_some_iff, Json.only?_eq_some_iff,
    EventForm.ofJson?_eq_some_iff, ofMembers?_eq_some_iff]
  constructor
  · rintro ⟨f, ⟨_, htype, rfl⟩, rfl, hfields⟩
    exact ⟨e.recordType_eq ▸ htype, hfields⟩
  · rintro ⟨htype, hfields⟩
    exact ⟨e.form, ⟨_, htype, by rw [e.recordType_eq]⟩, rfl, hfields⟩

/-! ### What makes no difference -/

theorem IsRecord.perm {e : Event} {members members' : List (String × Json)}
    (hperm : members.Perm members') (h : e.IsRecord members) : e.IsRecord members' := by
  refine ⟨h.type.perm hperm, fun field hfield => ?_⟩
  obtain ⟨v, hv, hdenotes⟩ := h.fields field hfield
  exact ⟨v, hv.perm hperm, hdenotes⟩

/-- Members that are not fields of the form that is named make no difference. -/
theorem isRecord_append_iff {e : Event} {others members : List (String × Json)}
    (htype : ∀ m ∈ others, m.1 ≠ "type")
    (hfields : ∀ f : EventForm, Json.OnlyMember "type" (.string f.name) members →
      ∀ m ∈ others, m.1 ∉ f.fieldNames) :
    e.IsRecord (others ++ members) ↔ e.IsRecord members := by
  have hfield : Json.OnlyMember "type" (.string e.recordType) members →
      ∀ field ∈ e.recordFields, ∀ v, Json.OnlyMember field.1 v (others ++ members) ↔
        Json.OnlyMember field.1 v members := by
    intro hnamed field hmem v
    rw [recordType_eq] at hnamed
    refine Json.onlyMember_append_iff fun m hm hname => hfields e.form hnamed m hm ?_
    rw [← map_fst_recordFields, hname]
    exact List.mem_map_of_mem hmem
  constructor
  · rintro ⟨hnamed, h⟩
    rw [Json.onlyMember_append_iff htype] at hnamed
    refine ⟨hnamed, fun field hmem => ?_⟩
    obtain ⟨v, hv, hdenotes⟩ := h field hmem
    exact ⟨v, (hfield hnamed field hmem v).mp hv, hdenotes⟩
  · rintro ⟨hnamed, h⟩
    refine ⟨(Json.onlyMember_append_iff htype).mpr hnamed, fun field hmem => ?_⟩
    obtain ⟨v, hv, hdenotes⟩ := h field hmem
    exact ⟨v, (hfield hnamed field hmem v).mpr hv, hdenotes⟩

/-- An object is read as an event exactly if it is a record of the event, in every document that
spells it.  The order of the members makes no difference, and neither do members that are not
fields of the form that is named. -/
theorem ofJson?_object_eq_some_iff :
    (∀ members e, ofJson? (.object members) = some e ↔ e.IsRecord members) ∧
    (∀ text members, Json.Spells (.object members) text → (Json.object members).InRange →
      ∀ e, read? text = some e ↔ e.IsRecord members) ∧
    (∀ members members' : List (String × Json), members.Perm members' →
      ofJson? (.object members) = ofJson? (.object members')) ∧
    ∀ others members : List (String × Json), (∀ m ∈ others, m.1 ≠ "type") →
      (∀ f : EventForm, Json.OnlyMember "type" (.string f.name) members →
        ∀ m ∈ others, m.1 ∉ f.fieldNames) →
      ofJson? (.object (others ++ members)) = ofJson? (.object members) := by
  refine ⟨fun members e => ofJson?_object, fun text members hspells hrange e => ?_,
    fun members members' hperm => ?_, fun others members htype hfields => ?_⟩
  · rw [read?, Json.read?_of_spells hrange.depth_le hrange.isFinite hspells, Option.bind_some,
      ofJson?_object]
  · apply Option.ext
    intro e
    rw [ofJson?_object, ofJson?_object]
    exact ⟨.perm hperm, .perm hperm.symm⟩
  · apply Option.ext
    intro e
    rw [ofJson?_object, ofJson?_object, isRecord_append_iff htype hfields]

/-- The form is named last, the members are reversed, and a member of another name is repeated. -/
theorem ofJson?_object_eq_some_iff_fatal :
    let members := [("message", Json.string "x"), ("type", Json.string "fatal")]
    let others := [("note", Json.null), ("note", Json.bool true)]
    (fatal "x").IsRecord members ∧
      Json.Spells (.object members) (Json.object members).render ∧ (Json.object members).InRange ∧
      read? (Json.object members).render = some (fatal "x") ∧
      ofJson? (.object members) = ofJson? (.object members.reverse) ∧
      ofJson? (.object (others ++ members)) = ofJson? (.object members) := by
  intro members others
  obtain ⟨hobject, htext, hperm, happend⟩ := ofJson?_object_eq_some_iff
  have hrecord : (fatal "x").IsRecord members := (hobject members (fatal "x")).mp rfl
  have hplain : (Json.object members).Plain := by
    apply Json.plain_object
    rw [List.forall_mem_cons, List.forall_mem_singleton]
    exact ⟨Json.plain_string _, Json.plain_string _⟩
  have hspells := Json.spells_render hplain.valid
  have hrange : (Json.object members).InRange := ⟨by decide, hplain.isFinite⟩
  have hnote : ∀ m ∈ others, m.1 = "note" := by
    rw [List.forall_mem_cons, List.forall_mem_singleton]
    exact ⟨rfl, rfl⟩
  refine ⟨hrecord, hspells, hrange, (htext _ members hspells hrange _).mpr hrecord,
    hperm members members.reverse (List.reverse_perm members).symm,
    happend others members (fun m hm => ?_) fun f _ m hm => ?_⟩
  · rw [hnote m hm]
    decide
  · rw [hnote m hm]
    cases f <;> decide

end Event

end TunnelEvents
