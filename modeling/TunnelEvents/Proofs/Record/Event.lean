import TunnelEvents.Proofs.Record.Members
import Mathlib.Data.List.Nodup

/-!
# Records of events keep everything

The members that are written for an event are a record of it, whatever its fields hold: each field
has a name of its own in its form, a field of text keeps its characters, and a counter keeps its
digits.  So two events have one text only if they are the same, and a text stands on one line.

## Main results

* `Event.isRecord_members` — what is written for an event is a record of it.
* `Event.ofJson?_toJson` — an event is found again in its JSON value.
* `Event.render_lossless` — **an event is found again in its record.**
-/

namespace TunnelEvents

namespace Json

theorem isNatural_ofNat (n : Nat) : IsNatural n (ofNat n) :=
  ⟨Nat.toDigits 10 n, rfl, Nat.ofDigitChars_ten_toDigits⟩

/-- Bytes are written as an array of numbers. -/
theorem isBytes_array (raw : Bytes) : IsBytes raw (.array (raw.map fun b => .ofNat b.toNat)) := by
  apply IsBytes.array
  rw [List.forall₂_map_left_iff]
  exact List.forall₂_same.mpr fun b _ => isNatural_ofNat b.toNat

/-- If no name is repeated, every member is the only one of its name. -/
theorem onlyMember_of_mem {members : List (String × Json)}
    (hnodup : (members.map Prod.fst).Nodup) {m : String × Json} (hm : m ∈ members) :
    OnlyMember m.1 m.2 members where
  count_eq := List.count_eq_one_of_mem hnodup (List.mem_map_of_mem hm)
  mem := hm

end Json

/-- No form has two fields of one name, or a field with the name of the tag. -/
theorem EventForm.nodup_fieldNames (f : EventForm) : ("type" :: f.fieldNames).Nodup := by
  cases f <;> decide

/-- If each field is given one value by name, then the tag and each field are given once. -/
theorem EventForm.onlyMember_zip (f : EventForm) {values : List Json}
    (hlength : f.fieldNames.length = values.length) :
    Json.OnlyMember "type" (.string f.name)
        (("type", .string f.name) :: f.fieldNames.zip values) ∧
      List.Forall₂ (fun name v => Json.OnlyMember name v
        (("type", .string f.name) :: f.fieldNames.zip values)) f.fieldNames values := by
  have hnodup : ((("type", Json.string f.name) :: f.fieldNames.zip values).map Prod.fst).Nodup := by
    rw [List.map_cons, List.map_fst_zip (Nat.le_of_eq hlength)]
    exact f.nodup_fieldNames
  refine ⟨Json.onlyMember_of_mem hnodup List.mem_cons_self, ?_⟩
  -- names and values are two lists of one length
  rw [List.forall₂_iff_zip]
  refine ⟨hlength, fun hmem => ?_⟩
  exact Json.onlyMember_of_mem hnodup (List.mem_cons_of_mem _ hmem)

namespace Event

/-- The values that are written for an event stand for its fields. -/
theorem forall₂_fieldValues (e : Event) :
    List.Forall₂ (fun field v => field.2 v) e.recordFields e.fieldValues := by
  cases e with
  | malformed raw => exact .cons (Json.isBytes_array raw) .nil
  | unknown tag body => exact .cons rfl (.cons rfl .nil)
  | hold reason => exact .cons rfl .nil
  | echo e => exact .cons rfl (.cons rfl .nil)
  | state r => exact .cons rfl (.cons rfl (.cons rfl (.cons rfl (.cons rfl .nil))))
  | byteCount c =>
    have hin := Json.isNatural_ofNat c.bytesIn.toNat
    have hout := Json.isNatural_ofNat c.bytesOut.toNat
    exact .cons rfl (.cons rfl (.cons hin (.cons hout .nil)))
  | password message => exact .cons rfl .nil
  | fatal message => exact .cons rfl .nil

theorem length_fieldValues (e : Event) : e.form.fieldNames.length = e.fieldValues.length := by
  rw [← map_fst_recordFields, List.length_map, e.forall₂_fieldValues.length_eq]

/-- What is written for an event is a record of it. -/
theorem isRecord_members (e : Event) :
    e.IsRecord (("type", .string e.form.name) :: e.form.fieldNames.zip e.fieldValues) := by
  obtain ⟨htype, hnames⟩ := e.form.onlyMember_zip e.length_fieldValues
  rw [← map_fst_recordFields, List.forall₂_map_left_iff] at hnames
  refine ⟨?_, Json.exists_forall₂_iff.mp ⟨e.fieldValues, ?_, e.forall₂_fieldValues⟩⟩
  · rwa [recordType_eq]
  · rwa [← map_fst_recordFields]

/-- An event is found again in its JSON value. -/
theorem ofJson?_toJson (e : Event) : ofJson? e.toJson = some e :=
  ofJson?_object.mpr e.isRecord_members

/-! ### Records -/

/-- Fields hold texts, truth values, counters and arrays of bytes. -/
theorem plain_of_mem_fieldValues {e : Event} {v : Json} (hv : v ∈ e.fieldValues) :
    v.Plain ∧ v.depth ≤ 1 := by
  have hstring : ∀ s : String, (Json.string s).Plain ∧ (Json.string s).depth ≤ 1 :=
    fun s => ⟨Json.plain_string s, Nat.zero_le 1⟩
  have hcounter : ∀ n : UInt64, (Json.ofNat n.toNat).Plain ∧ (Json.ofNat n.toNat).depth ≤ 1 :=
    fun n => ⟨Json.plain_ofNat n.toNat_lt, Nat.zero_le 1⟩
  cases e with
  | malformed raw =>
    obtain rfl := List.mem_singleton.mp hv
    have hitems : ∀ w ∈ raw.map fun b => Json.ofNat b.toNat, w.Plain ∧ w.depth ≤ 0 := by
      intro w hw
      obtain ⟨b, -, rfl⟩ := List.mem_map.mp hw
      have hlt : b.toNat < UInt64.size := Nat.lt_trans b.toNat_lt (by decide)
      exact ⟨Json.plain_ofNat hlt, Nat.zero_le 0⟩
    have hdepth := Json.itemsDepth_le_iff.mpr fun w hw => (hitems w hw).2
    refine ⟨Json.plain_array fun w hw => (hitems w hw).1, ?_⟩
    rw [Json.depth]
    omega
  | byteCount c =>
    simp only [fieldValues, List.mem_cons, List.not_mem_nil, or_false] at hv
    rcases hv with rfl | rfl | rfl | rfl
    · exact ⟨Json.plain_bool c.perClient, Nat.zero_le 1⟩
    · exact hstring c.clientId
    · exact hcounter c.bytesIn
    · exact hcounter c.bytesOut
  | _ =>
    simp only [fieldValues, List.mem_cons, List.not_mem_nil, or_false] at hv
    grind

/-- So does the whole object. -/
theorem plain_toJson (e : Event) : e.toJson.Plain ∧ e.toJson.depth ≤ 2 := by
  have hmembers : ∀ m ∈ ("type", Json.string e.form.name) :: e.form.fieldNames.zip e.fieldValues,
      m.2.Plain ∧ m.2.depth ≤ 1 := by
    intro m hm
    rcases List.mem_cons.mp hm with rfl | hm
    · exact ⟨Json.plain_string _, Nat.zero_le 1⟩
    · exact plain_of_mem_fieldValues (List.of_mem_zip hm).2
  have hdepth := Json.membersDepth_le_iff.mpr fun m hm => (hmembers m hm).2
  refine ⟨Json.plain_object fun m hm => (hmembers m hm).1, ?_⟩
  rw [toJson, Json.depth]
  omega

/-- An event is read from its record. -/
theorem read?_render (e : Event) : read? e.render = some e := by
  obtain ⟨hplain, hdepth⟩ := e.plain_toJson
  have hmax : e.toJson.depth ≤ Json.Document.maxDepth := Nat.le_trans hdepth (by decide)
  rw [read?, render, Json.read?_render hmax hplain, Option.bind_some, ofJson?_toJson]

/-- An event is found again in its record, which has no control character, and events with one
record are the same. -/
theorem render_lossless :
    (∀ e : Event, (∀ c ∈ e.render.toList, 0x20 ≤ c.toNat) ∧ read? e.render = some e) ∧
      ∀ e e' : Event, e = e' ↔ e.render = e'.render := by
  refine ⟨fun e => ⟨fun c hc => ?_, e.read?_render⟩, fun e e' => ⟨congrArg render, fun h => ?_⟩⟩
  · exact Json.le_of_mem_render e.plain_toJson.1.valid hc
  · have hread := e.read?_render
    rw [h, e'.read?_render] at hread
    exact (Option.some.inj hread).symm

/-- A line feed is escaped, and a tag that a line would not leave unknown is kept. -/
theorem render_lossless_lineFeed :
    '\\' ∈ (unknown "HOLD" "\n").render.toList ∧ 0x20 ≤ '\\'.toNat ∧
      read? (unknown "HOLD" "\n").render = some (unknown "HOLD" "\n") := by
  obtain ⟨habove, hread⟩ := render_lossless.1 (unknown "HOLD" "\n")
  have hmem : '\\' ∈ (unknown "HOLD" "\n").render.toList := by decide +kernel
  exact ⟨hmem, habove '\\' hmem, hread⟩

end Event

end TunnelEvents
