import TunnelEvents.Line.Shape
import TunnelEvents.Proofs.Text.Fields
import TunnelEvents.Proofs.Text.Utf8.RoundTrip

/-!
# The shape of a line decides what is read

A line that is a word, a colon and a body is read as an event with that word as its tag, and any
other line is kept as it is.  Which kind of event it is, and whether the event still has its body,
depends on the word alone.

## Main results

* `isTag_encode`, `exists_isWord_of_isTag` — the bytes that are a tag are the words.
* `Line.read_of_shaped`, `Line.read_of_not_shaped` — what a line is read as.
* `Event.ofLine_tag_append` — the event of a line with the tag of a kind.
* `Event.ofLine_dispatch` — **tag, kind and body of the event of any line.**
-/

namespace TunnelEvents

/-! ### Words -/

/-- A byte may stand in a tag exactly if it is an ASCII letter or digit or an underscore. -/
theorem isTagByte_iff (b : UInt8) : isTagByte b = true ↔
    b.toNat < 0x80 ∧ ((Char.ofNat b.toNat).isAlphanum = true ∨ Char.ofNat b.toNat = '_') := by
  -- both sides are read off a table of all bytes
  have key : ∀ n < 256, isTagByte (UInt8.ofNat n) = true ↔
      n < 0x80 ∧ ((Char.ofNat n).isAlphanum = true ∨ Char.ofNat n = '_') := by decide +kernel
  have h := key b.toNat b.toNat_lt_size
  rwa [UInt8.ofNat_toNat] at h

/-- The code points of the characters of a word. -/
theorem toNat_of_isAlphanum {c : Char} (h : c.isAlphanum = true ∨ c = '_') :
    (0x30 ≤ c.toNat ∧ c.toNat ≤ 0x39) ∨ (0x41 ≤ c.toNat ∧ c.toNat ≤ 0x5A) ∨ c.toNat = 0x5F ∨
      (0x61 ≤ c.toNat ∧ c.toNat ≤ 0x7A) := by
  rcases h with h | rfl
  · delta Char.isAlphanum Char.isAlpha Char.isUpper Char.isLower Char.isDigit at h
    simp only [Bool.or_eq_true, Bool.and_eq_true, decide_eq_true_eq, ge_iff_le,
      UInt32.le_iff_toNat_le] at h
    change (((65 ≤ c.toNat ∧ c.toNat ≤ 90) ∨ (97 ≤ c.toNat ∧ c.toNat ≤ 122)) ∨
      (48 ≤ c.toNat ∧ c.toNat ≤ 57)) at h
    omega
  · decide

theorem toNat_lt_of_isAlphanum {c : Char} (h : c.isAlphanum = true ∨ c = '_') :
    c.toNat < 0x80 := by
  have hrange := toNat_of_isAlphanum h
  omega

theorem IsWord.toNat_lt {s : String} (h : IsWord s) : ∀ c ∈ s.toList, c.toNat < 0x80 :=
  fun c hc => toNat_lt_of_isAlphanum (h.2 c hc)

/-- A word is encoded by bytes that may stand in a tag. -/
theorem IsWord.isTagByte {s : String} (h : IsWord s) :
    ∀ b ∈ Utf8.encode s, isTagByte b = true := by
  intro b hb
  rw [Utf8.encode_of_ascii h.toNat_lt] at hb
  obtain ⟨c, hc, rfl⟩ := List.mem_map.mp hb
  have hlt := h.toNat_lt c hc
  have hval : (UInt8.ofNat c.toNat).toNat = c.toNat := by
    rw [UInt8.toNat_ofNat']
    omega
  rw [isTagByte_iff, hval, Char.ofNat_toNat]
  exact ⟨hlt, h.2 c hc⟩

theorem encode_ne_nil {s : String} (h : s ≠ "") : Utf8.encode s ≠ [] := by
  intro hnil
  exact h (Utf8.encode_injective hnil)

theorem encode_colon_append (s : String) (bs : Bytes) :
    Utf8.encode (s ++ ":") ++ bs = Utf8.encode s ++ 0x3A :: bs := by
  rw [Utf8.encode_append, List.append_assoc]
  rfl

/-- A word is encoded as a tag. -/
theorem isTag_encode {s : String} (h : IsWord s) : isTag (Utf8.encode s) = true := by
  unfold isTag
  rw [Bool.and_eq_true, Bool.not_eq_true', List.isEmpty_eq_false_iff, List.all_eq_true]
  exact ⟨encode_ne_nil h.1, h.isTagByte⟩

/-- A tag is the encoding of a word. -/
theorem exists_isWord_of_isTag {tag : Bytes} (h : isTag tag = true) :
    ∃ word, IsWord word ∧ Utf8.encode word = tag := by
  unfold isTag at h
  rw [Bool.and_eq_true, Bool.not_eq_true', List.isEmpty_eq_false_iff, List.all_eq_true] at h
  obtain ⟨hne, hall⟩ := h
  have hchar : ∀ c ∈ tag.map fun b => Char.ofNat b.toNat, c.isAlphanum = true ∨ c = '_' := by
    intro c hc
    obtain ⟨b, hb, rfl⟩ := List.mem_map.mp hc
    exact ((isTagByte_iff b).mp (hall b hb)).2
  have henc : Utf8.encode (String.ofList (tag.map fun b => Char.ofNat b.toNat)) = tag := by
    rw [Utf8.encode_of_ascii, String.toList_ofList, List.map_map]
    · refine (List.map_congr_left fun b hb => ?_).trans (List.map_id tag)
      have hlt := ((isTagByte_iff b).mp (hall b hb)).1
      show UInt8.ofNat (Char.ofNat b.toNat).toNat = b
      rw [Utf8.toNat_ofNat_of_isValidChar (.inl (by omega)), UInt8.ofNat_toNat]
    · rw [String.toList_ofList]
      exact fun c hc => toNat_lt_of_isAlphanum (hchar c hc)
  refine ⟨_, ⟨?_, ?_⟩, henc⟩
  · intro hempty
    rw [hempty] at henc
    exact hne henc.symm
  · rw [String.toList_ofList]
    exact hchar

/-- A word holds no colon. -/
theorem IsWord.not_mem_colon {s : String} (h : IsWord s) : 0x3A ∉ Utf8.encode s := fun hmem =>
  absurd (h.isTagByte 0x3A hmem) (by decide)

/-! ### Reading the shape -/

/-- A line that is a word, a colon and a body is read as such. -/
theorem Line.read_of_shaped {line body : Bytes} {word : String} (h : Shaped line word body) :
    Line.read line = .tagged word body := by
  unfold Line.read cutAtColon?
  rw [h.line_eq, cut?_append_cons h.isWord.not_mem_colon]
  show (if isTag (Utf8.encode word) then _ else _) = _
  rw [if_pos (isTag_encode h.isWord), Utf8.decodeLossy_encode]

/-- A line of any other shape is read as malformed. -/
theorem Line.read_of_not_shaped {line : Bytes} (h : ∀ word body, ¬ Shaped line word body) :
    Line.read line = .malformed line := by
  unfold Line.read cutAtColon?
  cases hcut : cut? 0x3A line with
  | none => rfl
  | some p =>
    obtain ⟨tag, body⟩ := p
    obtain ⟨hline, -⟩ := cut?_eq_some_iff.mp hcut
    show (if isTag tag then _ else _) = _
    refine if_neg fun htag => ?_
    obtain ⟨word, hword, henc⟩ := exists_isWord_of_isTag htag
    exact h word body ⟨hword, by rw [henc, hline]⟩

/-- A line is a word, a colon and a body in one way. -/
theorem Shaped.unique {line body body' : Bytes} {word word' : String}
    (h : Shaped line word body) (h' : Shaped line word' body') : word = word' ∧ body = body' := by
  have heq := (Line.read_of_shaped h).symm.trans (Line.read_of_shaped h')
  rwa [Line.tagged.injEq] at heq

/-- A line is a word, a colon and a body, or it is not, whatever the word and the body. -/
theorem shaped_or_not_shaped (line : Bytes) :
    (∃ word body, Shaped line word body) ∨ ∀ word body, ¬ Shaped line word body := by
  by_cases h : ∃ word body, Shaped line word body
  · exact .inl h
  · exact .inr fun word body hs => h ⟨word, body, hs⟩

/-! ### Events of lines -/

theorem Event.ofLine_of_shaped {line body : Bytes} {word : String} (h : Shaped line word body) :
    Event.ofLine line = Event.ofTagged word (Utf8.decodeLossy body) := by
  rw [Event.ofLine, Line.read_of_shaped h]
  rfl

theorem Event.ofLine_of_not_shaped {line : Bytes} (h : ∀ word body, ¬ Shaped line word body) :
    Event.ofLine line = .malformed line := by
  rw [Event.ofLine, Line.read_of_not_shaped h]
  rfl

theorem Event.ofTagged_tag (k : EventKind) (body : String) :
    Event.ofTagged k.tag body = Event.ofBody k body := by
  rw [Event.ofTagged, EventKind.ofTag?_tag]

theorem Event.ofTagged_of_ne {tag : String} (h : ∀ k : EventKind, tag ≠ k.tag) (body : String) :
    Event.ofTagged tag body = .unknown tag body := by
  rw [Event.ofTagged, EventKind.ofTag?_eq_none_iff.mpr h]

@[simp] theorem Event.kind?_ofBody (k : EventKind) (body : String) :
    (Event.ofBody k body).kind? = some k := by
  cases k <;> rfl

@[simp] theorem Event.tag?_ofBody (k : EventKind) (body : String) :
    (Event.ofBody k body).tag? = some k.tag := by
  cases k <;> rfl

/-- The tag of a line is found again in its event. -/
@[simp] theorem Event.tag?_ofTagged (tag body : String) :
    (Event.ofTagged tag body).tag? = some tag := by
  unfold Event.ofTagged
  cases h : EventKind.ofTag? tag with
  | some k =>
    rw [EventKind.ofTag?_eq_some_iff.mp h]
    exact Event.tag?_ofBody k body
  | none => rfl

/-- The kind of an event is that of its tag. -/
@[simp] theorem Event.kind?_ofTagged (tag body : String) :
    (Event.ofTagged tag body).kind? = EventKind.ofTag? tag := by
  unfold Event.ofTagged
  cases EventKind.ofTag? tag with
  | some k => exact Event.kind?_ofBody k body
  | none => rfl

/-- A line with an event of a kind begins with the tag of the kind. -/
theorem Event.exists_shaped_of_kind? {line : Bytes} {k : EventKind}
    (h : (Event.ofLine line).kind? = some k) : ∃ body, Shaped line k.tag body := by
  rcases shaped_or_not_shaped line with ⟨word, body, hshaped⟩ | hnot
  · rw [Event.ofLine_of_shaped hshaped, Event.kind?_ofTagged] at h
    exact ⟨body, EventKind.ofTag?_eq_some_iff.mp h ▸ hshaped⟩
  · rw [Event.ofLine_of_not_shaped hnot] at h
    cases h

/-- Only a malformed line has no tag. -/
theorem Event.tag?_of_isMalformed {e : Event} (h : e.isMalformed = true) : e.tag? = none := by
  cases e with
  | malformed raw => rfl
  | _ => cases h

/-- A line is malformed exactly if it is not a word, a colon and a body. -/
theorem Event.isMalformed_ofLine_iff {line : Bytes} :
    (Event.ofLine line).isMalformed = true ↔ ∀ word body, ¬ Shaped line word body := by
  constructor
  · intro h word body hshaped
    have htag := Event.tag?_of_isMalformed h
    rw [Event.ofLine_of_shaped hshaped, Event.tag?_ofTagged] at htag
    cases htag
  · intro h
    rw [Event.ofLine_of_not_shaped h]
    rfl

/-- A line that begins with the tag of a kind and a colon is shaped. -/
theorem shaped_tag_append (k : EventKind) (body : Bytes) :
    Shaped (Utf8.encode (k.tag ++ ":") ++ body) k.tag body where
  isWord := isWord_tag k
  line_eq := encode_colon_append k.tag body

/-- The event of a line with the tag of a kind is that of the kind and the decoded body. -/
theorem Event.ofLine_tag_append (k : EventKind) (body : Bytes) :
    Event.ofLine (Utf8.encode (k.tag ++ ":") ++ body)
      = Event.ofBody k (Utf8.decodeLossy body) := by
  rw [Event.ofLine_of_shaped (shaped_tag_append k body), Event.ofTagged_tag]

/-- Every line that is a word, a colon and a body is read as an event with that word as its tag and
the kind of that tag.  The event has the decoded body unless its kind divides it.  Every other line
is kept byte by byte, with no tag, kind or body. -/
theorem Event.ofLine_dispatch (line : Bytes) :
    (∀ word body, Shaped line word body →
      (Event.ofLine line).isMalformed = false ∧
      (Event.ofLine line).tag? = some word ∧
      (Event.ofLine line).kind? = EventKind.ofTag? word ∧
      ((Event.ofLine line).kind? = none ↔ ∃ tag text, Event.ofLine line = .unknown tag text) ∧
      (Event.ofLine line).body? =
        match (Event.ofLine line).kind? with
        | some .echo | some .state | some .byteCount | some .byteCountClient => none
        | _ => some (Utf8.decodeLossy body)) ∧
    ((∀ word body, ¬ Shaped line word body) →
      Event.ofLine line = .malformed line ∧
      (Event.ofLine line).tag? = none ∧
      (Event.ofLine line).kind? = none ∧
      (Event.ofLine line).body? = none) := by
  constructor
  · intro word body h
    rw [Event.ofLine_of_shaped h]
    -- a word without a kind keeps its body as an unknown tag
    cases hk : EventKind.ofTag? word with
    | none =>
      rw [Event.ofTagged_of_ne (EventKind.ofTag?_eq_none_iff.mp hk)]
      exact ⟨rfl, rfl, rfl, ⟨fun _ => ⟨_, _, rfl⟩, fun _ => rfl⟩, rfl⟩
    | some k =>
      obtain rfl := EventKind.ofTag?_eq_some_iff.mp hk
      rw [Event.ofTagged_tag, Event.tag?_ofBody, Event.kind?_ofBody]
      refine ⟨?_, rfl, rfl, ⟨fun hnone => ?_, ?_⟩, ?_⟩
      · cases k <;> rfl
      · cases hnone
      · rintro ⟨tag, text, hunknown⟩
        have hkind := Event.kind?_ofBody k (Utf8.decodeLossy body)
        rw [hunknown] at hkind
        cases hkind
      · cases k <;> rfl
  · intro h
    rw [Event.ofLine_of_not_shaped h]
    exact ⟨rfl, rfl, rfl, rfl⟩

/-- The second colon belongs to the body, a body may be ill-formed, and a word is not empty. -/
theorem Event.ofLine_dispatch_colons :
    (Shaped [0x58, 0x3A, 0x3A, 0xFF] "X" [0x3A, 0xFF] ∧
      (Event.ofLine [0x58, 0x3A, 0x3A, 0xFF]).tag? = some "X" ∧
      (Event.ofLine [0x58, 0x3A, 0x3A, 0xFF]).kind? = EventKind.ofTag? "X") ∧
    (∀ word body, ¬ Shaped [0x3A, 0x58] word body) ∧
      Event.ofLine [0x3A, 0x58] = .malformed [0x3A, 0x58] := by
  have hshaped : Shaped [0x58, 0x3A, 0x3A, 0xFF] "X" [0x3A, 0xFF] := ⟨by decide, by decide⟩
  have hnot : ∀ word body, ¬ Shaped [0x3A, 0x58] word body := by
    rintro word body ⟨hword, hline⟩
    cases henc : Utf8.encode word with
    | nil => exact encode_ne_nil hword.1 henc
    | cons b bs =>
      rw [henc, List.cons_append, List.cons.injEq] at hline
      exact hword.not_mem_colon (by rw [henc, ← hline.1]; exact List.mem_cons_self)
  obtain ⟨-, htag, hkind, -⟩ := (Event.ofLine_dispatch _).1 _ _ hshaped
  exact ⟨⟨hshaped, htag, hkind⟩, hnot, ((Event.ofLine_dispatch _).2 hnot).1⟩

end TunnelEvents
