import TunnelEvents.Proofs.Text.Utf8.Scan

/-!
# Decoding encoded text

The scanner gives out each character of an encoded text as it was, so text survives being encoded
and decoded.

## Main results

* `segments_encodeChar_append` — the encoding of a character is read as that character.
* `decodeLossy_encode_append`, `decodeLossy_encode` — **decoding undoes encoding.**
* `encode_of_ascii` — a text in ASCII has one byte for each character.
-/

namespace TunnelEvents.Utf8

/-- The encoding of a character is read as that character. -/
theorem segments_encodeChar_append (c : Char) (bs : Bytes) :
    segments (String.utf8EncodeChar c ++ bs) = .scalar c :: segments bs := by
  have h := charBytes_encodeChar c
  have hc : Char.ofNat c.toNat = c := Char.ofNat_toNat c
  generalize c.toNat = n at h hc
  generalize String.utf8EncodeChar c = cs at h
  -- every byte but the last leaves the sequence pending
  cases h with
  | @one b _ h1 hn =>
    show segments (b :: bs) = _
    rw [segments_cons_of_lt h1, ← hn, hc]
  | @two b d _ h1 h2 h3 hn =>
    show segments (b :: d :: bs) = _
    rw [segments_cons_of_begin (start_two h1 h2),
      segmentsFrom_cons_of_last (Pending.resume_last h3), ← hn, hc]
  | @three b d e _ h1 h2 h3 h4 hn =>
    show segments (b :: d :: e :: bs) = _
    rw [segments_cons_of_begin (start_three h1 h2),
      segmentsFrom_cons_of_more (Pending.resume_more h3),
      segmentsFrom_cons_of_last (Pending.resume_last h4), ← hn, hc]
  | @four b d e f _ h1 h2 h3 h4 h5 hn =>
    show segments (b :: d :: e :: f :: bs) = _
    rw [segments_cons_of_begin (start_four h1 h2),
      segmentsFrom_cons_of_more (Pending.resume_more h3),
      segmentsFrom_cons_of_more (Pending.resume_more h4),
      segmentsFrom_cons_of_last (Pending.resume_last h5), ← hn, hc]

/-- The segments of an encoded text are its characters, whatever follows. -/
theorem segments_encode_append (s : String) (bs : Bytes) :
    segments (encode s ++ bs) = s.toList.map .scalar ++ segments bs := by
  rw [encode]
  induction s.toList with
  | nil => rfl
  | cons c cs ih =>
    rw [List.flatMap_cons, List.append_assoc, segments_encodeChar_append, ih, List.map_cons,
      List.cons_append]

/-- Decoding undoes encoding, whatever follows. -/
theorem decodeLossy_encode_append (s : String) (bs : Bytes) :
    decodeLossy (encode s ++ bs) = s ++ decodeLossy bs := by
  have hid : Segment.toChar ∘ Segment.scalar = id := rfl
  rw [decodeLossy, segments_encode_append, List.map_append, List.map_map, hid, List.map_id,
    String.ofList_append, String.ofList_toList]
  rfl

/-- Decoding undoes encoding. -/
@[simp] theorem decodeLossy_encode (s : String) : decodeLossy (encode s) = s := by
  have h := decodeLossy_encode_append s []
  rwa [List.append_nil, show decodeLossy [] = "" from rfl, String.append_empty] at h

theorem encode_injective {s t : String} (h : encode s = encode t) : s = t := by
  rw [← decodeLossy_encode s, h, decodeLossy_encode]

theorem encode_append (s t : String) : encode (s ++ t) = encode s ++ encode t := by
  rw [encode, String.toList_append, List.flatMap_append]
  rfl

theorem encodeChar_of_lt {c : Char} (h : c.toNat < 0x80) :
    String.utf8EncodeChar c = [UInt8.ofNat c.toNat] := by
  unfold String.utf8EncodeChar
  exact if_pos (show c.toNat ≤ 0x7F by omega)

/-- A text in ASCII has one byte for each character. -/
theorem encode_of_ascii {s : String} (h : ∀ c ∈ s.toList, c.toNat < 0x80) :
    encode s = s.toList.map fun c => UInt8.ofNat c.toNat := by
  rw [encode]
  generalize s.toList = cs at h
  induction cs with
  | nil => rfl
  | cons c cs ih =>
    rw [List.forall_mem_cons] at h
    rw [List.flatMap_cons, encodeChar_of_lt h.1, ih h.2, List.map_cons, List.singleton_append]

end TunnelEvents.Utf8
