import TunnelEvents.Proofs.Json.Document.Unique
import TunnelEvents.Proofs.Record.Event
import TunnelEvents.Record.Row

/-!
# Rows of events

A row is read by the position of its values and an object by the names of its members, but both
build the event from the same values.  So an array is read as an event just if it is a row of one of
the forms, and then as the event of the object that gives the same values by name.  What a row or an
object may hold is shallow and has numbers of 64 bits at most, so no document of a row is refused.

## Main results

* `EventForm.isSome_build?_iff` — the values from which an event of a form is built.
* `Event.ofJson?_row`, `Event.ofJson?_members` — rows and objects build the same event.
* `Event.ofJson?_replace` — bytes may be written as numbers or as a text.
* `Event.read?_row` — **an array is read as an event just if it is a row, and as the event of the
  object with the same values.**
-/

namespace TunnelEvents

/-! ### Documents of one value -/

/-- A document is read as an event just if its value is in range and decodes to the event. -/
theorem Event.read?_eq_some_iff {v : Json} {text : String} (h : Json.Spells v text) {e : Event} :
    read? text = some e ↔ v.InRange ∧ ofJson? v = some e := by
  simp only [read?, Option.bind_eq_some_iff, Json.read?_eq_some_iff_of_spells h]
  constructor
  · rintro ⟨_, ⟨rfl, hrange⟩, he⟩
    exact ⟨hrange, he⟩
  · rintro ⟨hrange, he⟩
    exact ⟨v, ⟨rfl, hrange⟩, he⟩

/-- Documents of values that decode alike are read alike, if both values are in range or neither. -/
theorem Event.read?_congr {v w : Json} {text text' : String} (hv : Json.Spells v text)
    (hw : Json.Spells w text') (hrange : v.InRange ↔ w.InRange) (hdecode : ofJson? v = ofJson? w) :
    read? text = read? text' := by
  apply Option.ext
  intro e
  rw [read?_eq_some_iff hv, read?_eq_some_iff hw, hrange, hdecode]

/-! ### Values in range -/

namespace Json

/-- A value that is no array or object, and whose number, if it is one, has 64 bits at most. -/
structure Scalar (v : Json) : Prop where
  depth_eq : v.depth = 0
  isFinite : ∀ n, .number n ∈ v.tokens → n.isFinite = true

theorem Scalar.entryInRange {v : Json} (h : v.Scalar) : v.EntryInRange where
  depth_lt := by
    rw [h.depth_eq]
    decide
  isFinite := h.isFinite

theorem scalar_string (s : String) : (Json.string s).Scalar := ⟨rfl, (plain_string s).isFinite⟩

theorem scalar_bool (b : Bool) : (Json.bool b).Scalar := ⟨rfl, (plain_bool b).isFinite⟩

theorem IsNatural.scalar {n : Nat} {v : Json} (h : v.IsNatural n) (hn : n < UInt64.size) :
    v.Scalar := by
  obtain ⟨digits, rfl, rfl⟩ := h
  refine ⟨rfl, fun m hm => ?_⟩
  obtain rfl := Token.number.inj (List.mem_singleton.mp hm)
  exact Numeral.isFinite_of_digits hn

theorem scalar_of_mem_bytes {items : List Json} {raw : Bytes}
    (h : List.Forall₂ (fun v b => v.IsNatural b.toNat) items raw) : ∀ v ∈ items, v.Scalar := by
  induction h with
  | nil => exact nofun
  | @cons v b _ _ hv _ ih =>
    have hlt : b.toNat < UInt64.size := Nat.lt_trans b.toNat_lt (by decide)
    exact List.forall_mem_cons.mpr ⟨hv.scalar hlt, ih⟩

/-- A value stands for no other bytes. -/
theorem IsBytes.unique {raw raw' : Bytes} {v : Json} (h : v.IsBytes raw) (h' : v.IsBytes raw') :
    raw = raw' := by
  rw [← bytes?_eq_some_iff] at h h'
  exact Option.some.inj (h.symm.trans h')

theorem IsBytes.entryInRange {raw : Bytes} {v : Json} (h : v.IsBytes raw) : v.EntryInRange := by
  cases h with
  | @string s _ => exact (scalar_string s).entryInRange
  | @array items h =>
    have hitems := scalar_of_mem_bytes h
    have hdepth : itemsDepth items ≤ 0 :=
      itemsDepth_le_iff.mpr fun w hw => Nat.le_of_eq (hitems w hw).depth_eq
    constructor
    · rw [depth, Nat.le_zero.mp hdepth]
      decide
    · intro n hn
      obtain ⟨w, hw, hnw⟩ := number_mem_array.mp hn
      exact (hitems w hw).isFinite n hnw

theorem HasType.exists_uint64 {v : Json} (h : v.HasType .counter) :
    ∃ n : UInt64, v.IsNatural n.toNat := by
  cases h with
  | @counter n _ hn hv =>
    refine ⟨UInt64.ofNat n, ?_⟩
    rwa [UInt64.toNat_ofNat_of_lt' hn]

/-- A value that may stand for a field can be read in every row and every object. -/
theorem HasType.entryInRange {t : FieldType} {v : Json} (h : v.HasType t) : v.EntryInRange := by
  cases h with
  | @text s => exact (scalar_string s).entryInRange
  | @truth b => exact (scalar_bool b).entryInRange
  | counter hn hv => exact (hv.scalar hn).entryInRange
  | bytes hraw => exact hraw.entryInRange

/-! ### Members of one name -/

theorem OnlyMember.eq_of_mem {name : String} {v w : Json} {members : List (String × Json)}
    (h : OnlyMember name v members) (hw : (name, w) ∈ members) : v = w := by
  have hv := only?_eq_some_iff.mpr h
  rw [only?_eq_some_iff.mpr ⟨h.count_eq, hw⟩] at hv
  exact (Option.some.inj hv).symm

variable {name : String} {v w : Json} {before after : List (String × Json)}

/-- The value of the only member of a name may be replaced. -/
theorem OnlyMember.replace {u : Json} (h : OnlyMember name u (before ++ (name, v) :: after)) :
    OnlyMember name w (before ++ (name, w) :: after) where
  count_eq := by simpa using h.count_eq
  mem := List.mem_append_right before List.mem_cons_self

/-- That does not change the members of other names. -/
theorem OnlyMember.replace_of_ne {name' : String} {u : Json} (hne : name' ≠ name)
    (h : OnlyMember name' u (before ++ (name, v) :: after)) :
    OnlyMember name' u (before ++ (name, w) :: after) where
  count_eq := by simpa using h.count_eq
  mem := by simpa [hne] using h.mem

end Json

theorem RowForm.IsRow.inRange {form : RowForm} {items : List Json} (h : form.IsRow items) :
    (Json.array items).InRange := by
  obtain ⟨hvalues⟩ := h
  rw [Json.inRange_array_iff, List.forall_mem_cons]
  refine ⟨(Json.scalar_string _).entryInRange, ?_⟩
  generalize form.fields = fields at hvalues
  induction hvalues with
  | nil => exact nofun
  | cons hv _ ih => exact List.forall_mem_cons.mpr ⟨hv.entryInRange, ih⟩

/-- A row and the object with the same values are in range alike. -/
theorem RowForm.inRange_row_iff {form : RowForm} {values : List Json}
    {members : List (String × Json)} (hlength : form.fields.length = values.length)
    (hperm : members.Perm (form.members values)) :
    (Json.array (.string form.name :: values)).InRange ↔ (Json.object members).InRange := by
  have hnames : values.length ≤ (form.fields.map Prod.fst).length := by
    rw [List.length_map]
    exact Nat.le_of_eq hlength.symm
  have hvalues : (form.members values).map Prod.snd = .string form.name :: values := by
    rw [RowForm.members, List.map_cons, List.map_snd_zip hnames]
  rw [Json.inRange_array_iff, Json.inRange_object_iff, ← hvalues, List.forall_mem_map]
  simp only [hperm.mem_iff]

/-! ### Forms -/

namespace EventForm

theorem mem_rowForms_iff {form : RowForm} :
    form ∈ Event.rowForms ↔ ∃ f : EventForm, f.rowForm = form := by
  rw [Event.rowForms, List.mem_map]
  exact ⟨fun ⟨f, _, hf⟩ => ⟨f, hf⟩, fun ⟨f, hf⟩ => ⟨f, f.mem_all, hf⟩⟩

@[simp] theorem name_rowForm (f : EventForm) : f.rowForm.name = f.name := by
  cases f <;> rfl

@[simp] theorem map_fst_rowForm (f : EventForm) :
    f.rowForm.fields.map Prod.fst = f.fieldNames := by
  cases f <;> rfl

theorem eq_malformed_of_mem_fieldNames {f : EventForm} (h : "raw" ∈ f.fieldNames) :
    f = malformed := by
  revert h
  cases f <;> decide

/-- The fields of an event have the types of its form. -/
theorem hasType_of_recordFields {e : Event} {values : List Json}
    (h : List.Forall₂ (fun field v => field.2 v) e.recordFields values) :
    List.Forall₂ (fun field v => Json.HasType field.2 v) e.form.rowForm.fields values := by
  cases e with
  | malformed raw =>
    obtain _ | ⟨hraw, _ | _⟩ := h
    exact .cons (.bytes hraw) .nil
  | unknown tag body =>
    obtain _ | ⟨rfl, _ | ⟨rfl, _ | _⟩⟩ := h
    exact .cons .text (.cons .text .nil)
  | hold reason =>
    obtain _ | ⟨rfl, _ | _⟩ := h
    exact .cons .text .nil
  | echo e =>
    obtain _ | ⟨rfl, _ | ⟨rfl, _ | _⟩⟩ := h
    exact .cons .text (.cons .text .nil)
  | state r =>
    obtain _ | ⟨rfl, _ | ⟨rfl, _ | ⟨rfl, _ | ⟨rfl, _ | ⟨rfl, _ | _⟩⟩⟩⟩⟩ := h
    exact .cons .text (.cons .text (.cons .text (.cons .text (.cons .text .nil))))
  | byteCount c =>
    obtain _ | ⟨rfl, _ | ⟨rfl, _ | ⟨hin, _ | ⟨hout, _ | _⟩⟩⟩⟩ := h
    have hin := Json.HasType.counter c.bytesIn.toNat_lt hin
    have hout := Json.HasType.counter c.bytesOut.toNat_lt hout
    exact .cons .truth (.cons .text (.cons hin (.cons hout .nil)))
  | password message =>
    obtain _ | ⟨rfl, _ | _⟩ := h
    exact .cons .text .nil
  | fatal message =>
    obtain _ | ⟨rfl, _ | _⟩ := h
    exact .cons .text .nil

/-- Values of the types of a form are those of an event. -/
theorem exists_recordFields {f : EventForm} {values : List Json}
    (h : List.Forall₂ (fun field v => Json.HasType field.2 v) f.rowForm.fields values) :
    ∃ e : Event, e.form = f ∧ List.Forall₂ (fun field v => field.2 v) e.recordFields values := by
  cases f with
  | malformed =>
    obtain _ | ⟨_ | _ | _ | hraw, _ | _⟩ := h
    exact ⟨.malformed _, rfl, .cons hraw .nil⟩
  | unknown =>
    obtain _ | ⟨⟨⟩, _ | ⟨⟨⟩, _ | _⟩⟩ := h
    exact ⟨.unknown _ _, rfl, .cons rfl (.cons rfl .nil)⟩
  | hold =>
    obtain _ | ⟨⟨⟩, _ | _⟩ := h
    exact ⟨.hold _, rfl, .cons rfl .nil⟩
  | echo =>
    obtain _ | ⟨⟨⟩, _ | ⟨⟨⟩, _ | _⟩⟩ := h
    exact ⟨.echo ⟨_, _⟩, rfl, .cons rfl (.cons rfl .nil)⟩
  | state =>
    obtain _ | ⟨⟨⟩, _ | ⟨⟨⟩, _ | ⟨⟨⟩, _ | ⟨⟨⟩, _ | ⟨⟨⟩, _ | _⟩⟩⟩⟩⟩ := h
    exact ⟨.state ⟨_, _, _, _, _⟩, rfl,
      .cons rfl (.cons rfl (.cons rfl (.cons rfl (.cons rfl .nil))))⟩
  | byteCount =>
    obtain _ | ⟨⟨⟩, _ | ⟨⟨⟩, _ | ⟨hin, _ | ⟨hout, _ | _⟩⟩⟩⟩ := h
    obtain ⟨bytesIn, hin⟩ := hin.exists_uint64
    obtain ⟨bytesOut, hout⟩ := hout.exists_uint64
    exact ⟨.byteCount ⟨_, _, bytesIn, bytesOut⟩, rfl,
      .cons rfl (.cons rfl (.cons hin (.cons hout .nil)))⟩
  | password =>
    obtain _ | ⟨⟨⟩, _ | _⟩ := h
    exact ⟨.password _, rfl, .cons rfl .nil⟩
  | fatal =>
    obtain _ | ⟨⟨⟩, _ | _⟩ := h
    exact ⟨.fatal _, rfl, .cons rfl .nil⟩

/-- An event is built of a form just if there is one value for each field, of its type. -/
theorem isSome_build?_iff {f : EventForm} {values : List Json} :
    (f.build? values).isSome = true ↔
      List.Forall₂ (fun field v => Json.HasType field.2 v) f.rowForm.fields values := by
  simp only [Option.isSome_iff_exists, build?_eq_some_iff]
  constructor
  · rintro ⟨e, rfl, h⟩
    exact hasType_of_recordFields h
  · exact exists_recordFields

end EventForm

/-! ### Rows and objects -/

namespace Event

/-- An array that begins with the name of a form gives the values of that form. -/
theorem ofJson?_row (f : EventForm) (values : List Json) :
    ofJson? (.array (.string f.name :: values)) = f.build? values := by
  rw [ofJson?, f.ofJson?_name]
  rfl

/-- An array is read as an event just if it is a row. -/
theorem isSome_ofJson?_array_iff {items : List Json} :
    (ofJson? (.array items)).isSome = true ↔ ∃ form ∈ rowForms, form.IsRow items := by
  constructor
  · intro h
    obtain ⟨e, he⟩ := Option.isSome_iff_exists.mp h
    cases items with
    | nil => cases he
    | cons v values =>
      obtain ⟨f, hf, hbuild⟩ := Option.bind_eq_some_iff.mp he
      obtain rfl := EventForm.ofJson?_eq_some_iff.mp hf
      have hvalues := EventForm.isSome_build?_iff.mp (Option.isSome_of_mem hbuild)
      refine ⟨f.rowForm, EventForm.mem_rowForms_iff.mpr ⟨f, rfl⟩, ?_⟩
      rw [← f.name_rowForm]
      exact .mk hvalues
  · rintro ⟨_, hform, ⟨hvalues⟩⟩
    obtain ⟨f, rfl⟩ := EventForm.mem_rowForms_iff.mp hform
    rw [f.name_rowForm, ofJson?_row]
    exact EventForm.isSome_build?_iff.mpr hvalues

/-- The object with the same values gives them too, in whichever order its members stand. -/
theorem ofJson?_members (f : EventForm) {values : List Json} {members : List (String × Json)}
    (hlength : f.fieldNames.length = values.length)
    (hperm : members.Perm (f.rowForm.members values)) :
    ofJson? (.object members) = f.build? values := by
  rw [RowForm.members, f.name_rowForm, f.map_fst_rowForm] at hperm
  obtain ⟨htype, hfields⟩ := f.onlyMember_zip hlength
  have htype := Json.only?_eq_some_iff.mpr (htype.perm hperm.symm)
  have hvalues : f.fieldNames.mapM (fun name => Json.only? name members) = some values :=
    Json.mapM_eq_some_iff.mpr (hfields.imp fun _ _ h =>
      Json.only?_eq_some_iff.mpr (h.perm hperm.symm))
  rw [ofJson?, htype, Option.bind_some, f.ofJson?_name]
  change f.ofMembers? members = _
  rw [EventForm.ofMembers?, hvalues, Option.bind_some]

/-! ### Bytes -/

/-- Only one field of one form has bytes under this name. -/
theorem isBytes_of_mem_recordFields {e : Event} {field : String × (Json → Prop)}
    (h : field ∈ e.recordFields) (hname : field.1 = "raw") : ∃ raw, field.2 = Json.IsBytes raw := by
  have hmem : "raw" ∈ e.form.fieldNames := by
    rw [← map_fst_recordFields, ← hname]
    exact List.mem_map_of_mem h
  have hform := EventForm.eq_malformed_of_mem_fieldNames hmem
  cases e with
  | malformed raw =>
    obtain rfl := List.mem_singleton.mp h
    exact ⟨raw, rfl⟩
  | _ => cases hform

/-- A value of a member may be replaced by one that stands for the same. -/
theorem IsRecord.replace {e : Event} {name : String} {v w : Json}
    {before after : List (String × Json)} (hname : name ≠ "type")
    (hfields : ∀ field ∈ e.recordFields, field.1 = name → field.2 v → field.2 w)
    (h : e.IsRecord (before ++ (name, v) :: after)) :
    e.IsRecord (before ++ (name, w) :: after) := by
  refine ⟨h.type.replace_of_ne hname.symm, fun field hfield => ?_⟩
  obtain ⟨u, hu, hdenotes⟩ := h.fields field hfield
  by_cases hsame : field.1 = name
  · rw [hsame] at hu ⊢
    obtain rfl := hu.eq_of_mem (List.mem_append_right before List.mem_cons_self)
    exact ⟨w, hu.replace, hfields field hfield hsame hdenotes⟩
  · exact ⟨u, hu.replace_of_ne hsame, hdenotes⟩

/-- In an object, values that stand for the same bytes may stand for each other. -/
theorem ofJson?_replace {raw : Bytes} {v w : Json} (hv : v.IsBytes raw) (hw : w.IsBytes raw)
    (before after : List (String × Json)) :
    ofJson? (.object (before ++ ("raw", v) :: after))
      = ofJson? (.object (before ++ ("raw", w) :: after)) := by
  have hreplace : ∀ {v w : Json}, v.IsBytes raw → w.IsBytes raw → ∀ e : Event,
      e.IsRecord (before ++ ("raw", v) :: after) → e.IsRecord (before ++ ("raw", w) :: after) := by
    intro v w hv hw e
    refine IsRecord.replace (by decide) fun field hfield hname hdenotes => ?_
    obtain ⟨raw', hbytes⟩ := isBytes_of_mem_recordFields hfield hname
    rw [hbytes] at hdenotes ⊢
    rwa [hdenotes.unique hv]
  apply Option.ext
  intro e
  rw [ofJson?_object, ofJson?_object]
  exact ⟨hreplace hv hw e, hreplace hw hv e⟩

/-- So they may in a row. -/
theorem ofJson?_row_bytes {raw : Bytes} {v : Json} (hv : v.IsBytes raw) :
    ofJson? (.array [.string "malformed", v]) = some (.malformed raw) := by
  have hrow := ofJson?_row .malformed [v]
  rw [EventForm.name] at hrow
  rw [hrow, EventForm.build?, Json.bytes?_eq_some_iff.mpr hv, Option.map_some]

/-! ### Texts -/

/-- A document of an array is read just if the array is a row. -/
theorem isSome_read?_array_iff {items : List Json} {text : String}
    (h : Json.Spells (.array items) text) :
    (read? text).isSome = true ↔ ∃ form ∈ rowForms, form.IsRow items := by
  rw [← isSome_ofJson?_array_iff]
  simp only [Option.isSome_iff_exists, read?_eq_some_iff h]
  constructor
  · rintro ⟨e, -, he⟩
    exact ⟨e, he⟩
  · rintro ⟨e, he⟩
    obtain ⟨form, -, hrow⟩ := isSome_ofJson?_array_iff.mp (Option.isSome_of_mem he)
    exact ⟨e, hrow.inRange, he⟩

/-- A document of a row is read as one of the object with the same values. -/
theorem read?_row_eq_members {form : RowForm} (hform : form ∈ rowForms) {values : List Json}
    {members : List (String × Json)} {row record : String}
    (hlength : form.fields.length = values.length) (hperm : members.Perm (form.members values))
    (hrow : Json.Spells (.array (.string form.name :: values)) row)
    (hrecord : Json.Spells (.object members) record) : read? row = read? record := by
  obtain ⟨f, rfl⟩ := EventForm.mem_rowForms_iff.mp hform
  have hnames : f.fieldNames.length = values.length := by
    rw [← f.map_fst_rowForm, List.length_map, hlength]
  refine read?_congr hrow hrecord (RowForm.inRange_row_iff hlength hperm) ?_
  rw [f.name_rowForm, ofJson?_row, ofJson?_members f hnames hperm]

/-- A row of bytes is read, however the bytes are written. -/
theorem read?_row_of_isBytes {raw : Bytes} {v : Json} {row : String} (hv : v.IsBytes raw)
    (hrow : Json.Spells (.array [.string "malformed", v]) row) :
    read? row = some (.malformed raw) := by
  refine (read?_eq_some_iff hrow).mpr ⟨?_, ofJson?_row_bytes hv⟩
  rw [Json.inRange_array_iff, List.forall_mem_cons, List.forall_mem_singleton]
  exact ⟨(Json.scalar_string _).entryInRange, hv.entryInRange⟩

/-- How the bytes of an object are written makes no difference, whatever else it holds. -/
theorem read?_members_of_isBytes {raw : Bytes} {v w : Json} {before after : List (String × Json)}
    {record record' : String} (hv : v.IsBytes raw) (hw : w.IsBytes raw)
    (hrecord : Json.Spells (.object (before ++ ("raw", v) :: after)) record)
    (hrecord' : Json.Spells (.object (before ++ ("raw", w) :: after)) record') :
    read? record = read? record' := by
  refine read?_congr hrecord hrecord' ?_ (ofJson?_replace hv hw before after)
  simp only [Json.inRange_object_iff, List.forall_mem_append, List.forall_mem_cons,
    hv.entryInRange, hw.entryInRange, true_and]

/-- What is neither an array nor an object is no event. -/
theorem read?_eq_none {v : Json} {text : String} (h : Json.Spells v text)
    (harray : ∀ items, v ≠ .array items) (hobject : ∀ members, v ≠ .object members) :
    read? text = none := by
  refine Option.eq_none_iff_forall_ne_some.mpr fun e he => ?_
  obtain ⟨-, he⟩ := (read?_eq_some_iff h).mp he
  cases v with
  | array items => exact harray items rfl
  | object members => exact hobject members rfl
  | _ => cases he

/-- A document of an array is read as an event just if the array is a row of a form: the name of the
form and a value of its type for each field, no more and no fewer.  The event is that of the object
with the same values, in whichever order its members stand.  Bytes are the same in a row and in an
object whether they are written as numbers or as the text that they encode.  What is neither an
array nor an object is no event. -/
theorem read?_row :
    (∀ items text, Json.Spells (.array items) text →
      ((read? text).isSome = true ↔ ∃ form ∈ rowForms, form.IsRow items)) ∧
    (∀ form ∈ rowForms, ∀ values members row record, form.fields.length = values.length →
      List.Perm members (form.members values) →
      Json.Spells (.array (.string form.name :: values)) row →
      Json.Spells (.object members) record → read? row = read? record) ∧
    (∀ s items, Json.IsBytes (Utf8.encode s) (.array items) →
      (∀ row row', Json.Spells (.array [.string "malformed", .string s]) row →
        Json.Spells (.array [.string "malformed", .array items]) row' →
        read? row = some (.malformed (Utf8.encode s)) ∧
          read? row' = some (.malformed (Utf8.encode s))) ∧
      ∀ before after record record',
        Json.Spells (.object (before ++ ("raw", .string s) :: after)) record →
        Json.Spells (.object (before ++ ("raw", .array items) :: after)) record' →
        read? record = read? record') ∧
    ∀ v text, Json.Spells v text → (∀ items, v ≠ .array items) → (∀ members, v ≠ .object members) →
      read? text = none := by
  refine ⟨fun items text => isSome_read?_array_iff, ?_, fun s items hitems => ⟨?_, ?_⟩, ?_⟩
  · intro form hform values members row record hlength hperm
    exact read?_row_eq_members hform hlength hperm
  · intro row row' hrow hrow'
    exact ⟨read?_row_of_isBytes (.string rfl) hrow, read?_row_of_isBytes hitems hrow'⟩
  · intro before after record record'
    exact read?_members_of_isBytes (.string rfl) hitems
  · intro v text
    exact read?_eq_none

/-- Two bytes are given as numbers, by position and by name, and as a text. -/
theorem read?_row_malformed :
    let numbers := Json.array [.ofNat 0xC3, .ofNat 0xA9]
    let row := Json.array [.string "malformed", numbers]
    let record := Json.object [("raw", numbers), ("type", .string "malformed")]
    let text := Json.array [.string "malformed", .string "é"]
    (read? row.render).isSome = true ∧ read? row.render = read? record.render ∧
      read? text.render = some (.malformed [0xC3, 0xA9]) ∧ read? Json.null.render = none := by
  intro numbers row record text
  obtain ⟨hrows, hrecords, hbytes, hothers⟩ := read?_row
  have hform : ⟨"malformed", [("raw", .bytes)]⟩ ∈ rowForms := List.mem_cons_self
  have hencode : Utf8.encode "é" = [0xC3, 0xA9] := by decide
  have hnumbers : Json.IsBytes (Utf8.encode "é") numbers := by
    rw [hencode]
    exact Json.isBytes_array [0xC3, 0xA9]
  -- the compact texts spell their values
  have hname := Json.plain_string "malformed"
  have hplain : numbers.Plain := by
    refine Json.plain_array (List.forall_mem_cons.mpr ⟨?_, List.forall_mem_singleton.mpr ?_⟩)
    · exact Json.plain_ofNat (by decide)
    · exact Json.plain_ofNat (by decide)
  have hrow : Json.Spells row row.render := Json.spells_render (Json.plain_array
    (List.forall_mem_cons.mpr ⟨hname, List.forall_mem_singleton.mpr hplain⟩)).valid
  have hrecord : Json.Spells record record.render := Json.spells_render (Json.plain_object
    (List.forall_mem_cons.mpr ⟨hplain, List.forall_mem_singleton.mpr hname⟩)).valid
  have htext : Json.Spells text text.render := Json.spells_render (Json.plain_array
    (List.forall_mem_cons.mpr ⟨hname, List.forall_mem_singleton.mpr (Json.plain_string "é")⟩)).valid
  refine ⟨(hrows _ _ hrow).mpr ⟨_, hform, .mk (.cons (.bytes hnumbers) .nil)⟩,
    hrecords _ hform [numbers] _ _ _ rfl (.swap _ _ _) hrow hrecord, ?_, ?_⟩
  · rw [← hencode]
    exact ((hbytes "é" _ hnumbers).1 _ _ htext hrow).1
  · exact hothers .null _ (Json.spells_render nofun) nofun nofun

end Event

end TunnelEvents
