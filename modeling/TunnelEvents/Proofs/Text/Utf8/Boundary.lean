import TunnelEvents.Proofs.Text.Utf8.Scan

/-!
# Cutting bytes where a character may begin

No sequence goes on across a byte that continues none.  So bytes may be cut in front of such a byte
and the pieces decoded one by one, whatever ill-formed run stands before the cut.  ASCII characters
are found in the text exactly where their bytes are: an ill-formed run holds none, and neither do
the other bytes of a character.

## Main definitions

* `Utf8.StartsAfresh` — a byte sequence does not begin with a continuation byte.
* `Utf8.Segment.NoAscii` — if a segment is ill-formed, it holds no ASCII byte.

## Main results

* `segmentsFrom_append`, `decodeLossy_append` — **decoding commutes with cutting.**
* `filter_toList_decodeLossy` — the ASCII characters of a text are the ASCII bytes.
-/

namespace TunnelEvents.Utf8

/-! ### Cutting -/

/-- The bytes are none, or the first of them continues no sequence. -/
def StartsAfresh (bs : Bytes) : Prop := ∀ b ∈ bs.head?, ¬ IsContinuation b

theorem startsAfresh_cons_of_lt {b : UInt8} (h : b.toNat < 0x80) (bs : Bytes) :
    StartsAfresh (b :: bs) := by
  intro c hc
  rw [List.head?_cons, Option.mem_some] at hc
  rw [← hc, isContinuation_iff]
  omega

/-- Bytes that start afresh end what was pending. -/
theorem segmentsFrom_of_startsAfresh {state : Option Pending} (hs : Live state) {bs : Bytes}
    (h : StartsAfresh bs) : segmentsFrom state bs = finish state ++ segments bs := by
  cases state with
  | none => rfl
  | some p =>
    cases bs with
    | nil => simp [segments, finish]
    | cons b bs =>
      have hb : ¬ (p.least ≤ b ∧ b ≤ p.greatest) := fun hb =>
        h b rfl ((hs p rfl).isContinuation hb.1 hb.2)
      rw [segments, segmentsFrom_cons, segmentsFrom_cons, step_some, step_none,
        Pending.resume_of_not_mem hb]
      rfl

/-- Bytes may be cut where the second part starts afresh. -/
theorem segmentsFrom_append {bs : Bytes} (h : StartsAfresh bs) :
    ∀ (as : Bytes) {state : Option Pending}, Live state →
      segmentsFrom state (as ++ bs) = segmentsFrom state as ++ segments bs := by
  -- whatever the first part leaves pending is ended by the second
  intro as
  induction as with
  | nil =>
    intro state hs
    rw [List.nil_append, segmentsFrom_of_startsAfresh hs h, segmentsFrom_nil]
  | cons a as ih =>
    intro state hs
    rw [List.cons_append, segmentsFrom_cons, segmentsFrom_cons, ih (hs.step a), List.append_assoc]

theorem segments_append (as : Bytes) {bs : Bytes} (h : StartsAfresh bs) :
    segments (as ++ bs) = segments as ++ segments bs :=
  segmentsFrom_append h as live_none

/-- Decoding commutes with cutting where the second part starts afresh. -/
theorem decodeLossy_append (as : Bytes) {bs : Bytes} (h : StartsAfresh bs) :
    decodeLossy (as ++ bs) = decodeLossy as ++ decodeLossy bs := by
  rw [decodeLossy, segments_append as h, List.map_append, String.ofList_append]
  rfl

@[simp] theorem decodeLossy_nil : decodeLossy [] = "" := rfl

/-- An ASCII byte divides the text as it divides the bytes. -/
theorem toList_decodeLossy_append_cons {b : UInt8} (h : b.toNat < 0x80) (as bs : Bytes) :
    (decodeLossy (as ++ b :: bs)).toList
      = (decodeLossy as).toList ++ Char.ofNat b.toNat :: (decodeLossy bs).toList := by
  rw [toList_decodeLossy, segments_append as (startsAfresh_cons_of_lt h bs),
    segments_cons_of_lt h bs, List.map_append, List.map_cons, toList_decodeLossy,
    toList_decodeLossy, Segment.toChar_scalar]

/-! ### ASCII characters -/

/-- If the segment is ill-formed, it holds no ASCII byte. -/
def Segment.NoAscii : Segment → Prop
  | .scalar _ => True
  | .illFormed bytes => ∀ b ∈ bytes, 0x80 ≤ b.toNat

theorem noAscii_start (b : UInt8) : ∀ s ∈ (start b).1, s.NoAscii := by
  rcases start_cases b with ⟨c, h, -⟩ | ⟨h, hb⟩ | ⟨p, h, -⟩
  · rw [h, List.forall_mem_singleton]
    trivial
  · rw [h, List.forall_mem_singleton]
    intro x hx
    rw [List.mem_singleton] at hx
    exact hx ▸ hb
  · rw [h]
    exact List.forall_mem_nil _

theorem noAscii_step {state : Option Pending} (h : Live state) (b : UInt8) :
    ∀ s ∈ (step state b).1, s.NoAscii := by
  cases state with
  | none => exact noAscii_start b
  | some p =>
    rw [step_some]
    rcases (h p rfl).resume_cases b with ⟨c, hc, -⟩ | ⟨q, hq, -⟩ | hr
    · rw [hc, List.forall_mem_singleton]
      trivial
    · rw [hq]
      exact List.forall_mem_nil _
    · rw [hr, List.forall_mem_cons]
      exact ⟨(h p rfl).le_of_mem_read, noAscii_start b⟩

theorem noAscii_segmentsFrom : ∀ (bs : Bytes) {state : Option Pending}, Live state →
    ∀ s ∈ segmentsFrom state bs, s.NoAscii := by
  intro bs
  induction bs with
  | nil =>
    intro state h
    rw [segmentsFrom_nil]
    cases state with
    | none => exact List.forall_mem_nil _
    | some p =>
      rw [finish, List.forall_mem_singleton]
      exact (h p rfl).le_of_mem_read
  | cons b bs ih =>
    intro state h
    rw [segmentsFrom_cons, List.forall_mem_append]
    exact ⟨noAscii_step h b, ih (h.step b)⟩

/-- The ASCII bytes that encode a character are the character itself if it is one. -/
theorem filter_encodeChar (c : Char) :
    ((String.utf8EncodeChar c).filter (·.toNat < 0x80)).map (fun b => Char.ofNat b.toNat)
      = [c].filter (·.toNat < 0x80) := by
  have h := charBytes_encodeChar c
  generalize String.utf8EncodeChar c = bs at h
  cases h with
  | one hb hc =>
    have hlt : c.toNat < 0x80 := by omega
    simp [hlt, ← hc]
  | two hb _ hc hn =>
    rw [isContinuation_iff] at hc
    have hlt : ¬ c.toNat < 0x80 := by omega
    simp [hlt]
    omega
  | three hb _ hc hd hn =>
    rw [isSecond_iff] at hc
    rw [isContinuation_iff] at hd
    have hlt : ¬ c.toNat < 0x80 := by omega
    simp [hlt]
    omega
  | four hb _ hc hd he hn =>
    rw [isSecond_iff] at hc
    rw [isContinuation_iff] at hd he
    have hlt : ¬ c.toNat < 0x80 := by omega
    simp [hlt]
    omega

/-- The ASCII characters that stand for segments are the ASCII bytes of the segments. -/
theorem filter_map_toChar : ∀ ss : List Segment, (∀ s ∈ ss, s.NoAscii) →
    (ss.map Segment.toChar).filter (·.toNat < 0x80)
      = ((ss.flatMap Segment.bytes).filter (·.toNat < 0x80)).map
          fun b => Char.ofNat b.toNat := by
  intro ss
  induction ss with
  | nil =>
    intro _
    rfl
  | cons s ss ih =>
    intro h
    rw [List.forall_mem_cons] at h
    rw [List.flatMap_cons, List.filter_append, List.map_append, ← ih h.2, List.map_cons,
      ← List.singleton_append, List.filter_append]
    congr 1
    -- a character is its own ASCII byte, and an ill-formed run has none
    cases s with
    | scalar c => exact (filter_encodeChar c).symm
    | illFormed bytes =>
      have hnone : bytes.filter (·.toNat < 0x80) = [] := by
        rw [List.filter_eq_nil_iff]
        intro b hb
        have := h.1 b hb
        simpa using this
      rw [Segment.bytes_illFormed, hnone]
      rfl

/-- The ASCII characters of a text are, in order, the ASCII bytes that it was decoded from. -/
theorem filter_toList_decodeLossy (bs : Bytes) :
    (decodeLossy bs).toList.filter (·.toNat < 0x80)
      = (bs.filter (·.toNat < 0x80)).map fun b => Char.ofNat b.toNat := by
  have h := filter_map_toChar (segments bs) (noAscii_segmentsFrom bs live_none)
  rw [flatMap_bytes_segments] at h
  rw [toList_decodeLossy, h]

/-- An ASCII character is in the text exactly if its byte is among the bytes. -/
theorem mem_toList_decodeLossy {b : UInt8} (hb : b.toNat < 0x80) (bs : Bytes) :
    Char.ofNat b.toNat ∈ (decodeLossy bs).toList ↔ b ∈ bs := by
  have hval : ∀ a : UInt8, a.toNat < 0x80 → (Char.ofNat a.toNat).toNat = a.toNat := fun a ha =>
    toNat_ofNat_of_isValidChar (.inl (by omega))
  have hmem : Char.ofNat b.toNat ∈ (decodeLossy bs).toList ↔
      Char.ofNat b.toNat ∈ (decodeLossy bs).toList.filter (·.toNat < 0x80) := by
    rw [List.mem_filter, hval b hb]
    simp [hb]
  -- among the ASCII characters the bytes are the same list
  rw [hmem, filter_toList_decodeLossy, List.mem_map]
  constructor
  · rintro ⟨a, ha, hab⟩
    rw [List.mem_filter] at ha
    have hlt : a.toNat < 0x80 := by simpa using ha.2
    have heq : a.toNat = b.toNat := by rw [← hval a hlt, hab, hval b hb]
    rw [← UInt8.toNat_inj.mp heq]
    exact ha.1
  · intro h
    exact ⟨b, List.mem_filter.mpr ⟨h, by simpa using hb⟩, rfl⟩

end TunnelEvents.Utf8
