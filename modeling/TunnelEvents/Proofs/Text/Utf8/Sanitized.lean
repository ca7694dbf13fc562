import TunnelEvents.Proofs.Text.Utf8.RoundTrip

/-!
# Sanitized bytes

Bytes that are decoded and encoded again are well formed, and say the same text.  Every ill-formed
run has become a replacement character, which is no ASCII character.  So ASCII characters at the
beginning stay where they are: none is lost, and no replacement takes the place of one.

## Main definitions

* `Utf8.sanitize` — the bytes of the text of a byte sequence.

## Main results

* `decodeLossy_eq_append_iff` — the text begins in ASCII exactly as the bytes do.
* `decodeLossy_sanitize` — sanitized bytes say the same text.
* `sanitize_eq_append_iff` — **sanitizing neither adds nor removes ASCII characters in front.**
-/

namespace TunnelEvents.Utf8

/-! ### Text that begins in ASCII -/

/-- An ASCII character in front of the text is a byte in front of the bytes. -/
theorem eq_cons_of_segments_map {bs : Bytes} {c : Char} {cs : List Char} (hc : c.toNat < 0x80)
    (h : (segments bs).map Segment.toChar = c :: cs) :
    ∃ rest, bs = UInt8.ofNat c.toNat :: rest ∧ (segments rest).map Segment.toChar = cs := by
  cases hsegments : segments bs with
  | nil =>
    rw [hsegments] at h
    cases h
  | cons s ss =>
    rw [hsegments, List.map_cons, List.cons.injEq] at h
    obtain ⟨hs, hss⟩ := h
    cases s with
    | illFormed bytes =>
      -- a replacement character is not in ASCII
      rw [Segment.toChar_illFormed] at hs
      rw [← hs] at hc
      exact absurd hc (by decide)
    | scalar d =>
      rw [Segment.toChar_scalar] at hs
      subst hs
      have hbytes := flatMap_bytes_segments bs
      rw [hsegments, List.flatMap_cons, Segment.bytes_scalar, encodeChar_of_lt hc,
        List.singleton_append] at hbytes
      have hlt : (UInt8.ofNat d.toNat).toNat < 0x80 := by
        rw [UInt8.toNat_ofNat']
        omega
      rw [← hbytes, segments_cons_of_lt hlt, List.cons.injEq] at hsegments
      refine ⟨ss.flatMap Segment.bytes, hbytes.symm, ?_⟩
      rw [hsegments.2, hss]

/-- ASCII characters in front of the text are as many bytes in front of the bytes. -/
theorem eq_append_of_segments_map : ∀ {as cs : List Char} {bs : Bytes},
    (∀ c ∈ as, c.toNat < 0x80) → (segments bs).map Segment.toChar = as ++ cs →
      ∃ rest, bs = as.map (fun c => UInt8.ofNat c.toNat) ++ rest ∧
        (segments rest).map Segment.toChar = cs := by
  intro as
  induction as with
  | nil =>
    intro cs bs _ h
    exact ⟨bs, rfl, h⟩
  | cons a as ih =>
    intro cs bs has h
    rw [List.forall_mem_cons] at has
    obtain ⟨rest, rfl, hrest⟩ := eq_cons_of_segments_map has.1 h
    obtain ⟨rest', rfl, hrest'⟩ := ih has.2 hrest
    exact ⟨rest', rfl, hrest'⟩

/-- The text begins with a text in ASCII exactly if the bytes begin with its bytes. -/
theorem decodeLossy_eq_append_iff {s t : String} (hs : ∀ c ∈ s.toList, c.toNat < 0x80)
    (bs : Bytes) :
    decodeLossy bs = s ++ t ↔ ∃ rest, bs = encode s ++ rest ∧ decodeLossy rest = t := by
  constructor
  · intro h
    have hlist := congrArg String.toList h
    rw [toList_decodeLossy, String.toList_append] at hlist
    obtain ⟨rest, hbs, hrest⟩ := eq_append_of_segments_map hs hlist
    refine ⟨rest, ?_, ?_⟩
    · rw [encode_of_ascii hs, hbs]
    · rw [decodeLossy, hrest, String.ofList_toList]
  · rintro ⟨rest, rfl, rfl⟩
    exact decodeLossy_encode_append s rest

/-! ### Sanitized bytes -/

/-- The bytes of the text of a byte sequence, in which each ill-formed run has become a replacement
character. -/
def sanitize (bs : Bytes) : Bytes := encode (decodeLossy bs)

@[simp] theorem decodeLossy_sanitize (bs : Bytes) : decodeLossy (sanitize bs) = decodeLossy bs :=
  decodeLossy_encode _

theorem sanitize_encode_append (s : String) (bs : Bytes) :
    sanitize (encode s ++ bs) = encode s ++ sanitize bs := by
  rw [sanitize, decodeLossy_encode_append, encode_append, sanitize]

/-- Sanitized bytes begin with the bytes of a text in ASCII exactly if the bytes did, and what
follows them is sanitized too. -/
theorem sanitize_eq_append_iff {s : String} (hs : ∀ c ∈ s.toList, c.toNat < 0x80)
    {bs rest : Bytes} :
    sanitize bs = encode s ++ rest ↔ ∃ rest', bs = encode s ++ rest' ∧ rest = sanitize rest' := by
  constructor
  · intro h
    have htext : decodeLossy bs = s ++ decodeLossy rest := by
      rw [← decodeLossy_sanitize, h, decodeLossy_encode_append]
    obtain ⟨rest', rfl, -⟩ := (decodeLossy_eq_append_iff hs bs).mp htext
    rw [sanitize_encode_append, List.append_cancel_left_eq] at h
    exact ⟨rest', rfl, h.symm⟩
  · rintro ⟨rest', rfl, rfl⟩
    exact sanitize_encode_append s rest'

end TunnelEvents.Utf8
