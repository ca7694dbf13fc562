import TunnelEvents.Proofs.Text.Utf8.Boundary
import TunnelEvents.Proofs.Text.Utf8.RoundTrip
import TunnelEvents.Text.Utf8.WellFormed

/-!
# What the table of well-formed sequences says

The table lists exactly the encodings of characters, so the valid byte sequences are the encodings
of texts.  These are the sequences that decoding and encoding again leaves as they are.

## Main results

* `wellFormed_iff_exists_encodeChar` — the well-formed sequences are the encodings of characters.
* `valid_iff_exists_encode` — the valid sequences are the encodings of texts.
* `decodeLossy_laws` — **the algebra of decoding.**
-/

namespace TunnelEvents.Utf8

/-! ### Characters -/

theorem fits_nil_iff {bytes : Bytes} : Fits [] bytes ↔ bytes = [] := by
  cases bytes <;> simp [Fits]

theorem fits_cons_iff {low high : UInt8} {ranges : List (UInt8 × UInt8)} {bytes : Bytes} :
    Fits ((low, high) :: ranges) bytes ↔
      ∃ b rest, bytes = b :: rest ∧ (low.toNat ≤ b.toNat ∧ b.toNat ≤ high.toNat) ∧
        Fits ranges rest := by
  cases bytes with
  | nil => simp [Fits]
  | cons b rest =>
    rw [Fits, UInt8.le_iff_toNat_le, UInt8.le_iff_toNat_le]
    constructor
    · exact fun h => ⟨b, rest, rfl, h⟩
    · rintro ⟨c, more, heq, h⟩
      cases heq
      exact h

/-- Each kind of the table keeps within the ranges of the encoder. -/
theorem exists_charBytes_of_wellFormed {bytes : Bytes} (h : WellFormed bytes) :
    ∃ n, CharBytes bytes n := by
  obtain ⟨kind, hkind, hfits⟩ := h
  simp only [kinds, List.mem_cons, List.not_mem_nil, or_false] at hkind
  rcases hkind with rfl | rfl | rfl | rfl | rfl | rfl | rfl | rfl | rfl <;>
    simp only [fits_cons_iff, fits_nil_iff, UInt8.reduceToNat] at hfits
  · obtain ⟨b, _, rfl, hb, rfl⟩ := hfits
    exact ⟨_, .one (by omega) rfl⟩
  · obtain ⟨b, _, rfl, hb, c, _, rfl, hc, rfl⟩ := hfits
    exact ⟨_, .two hb.1 hb.2 (isContinuation_iff.mpr hc) rfl⟩
  -- the kinds of three bytes differ in the lead byte and the range of the second
  iterate 4
    obtain ⟨b, _, rfl, hb, c, _, rfl, hc, d, _, rfl, hd, rfl⟩ := hfits
    exact ⟨_, .three (by omega) (by omega) (isSecond_iff.mpr (by omega))
      (isContinuation_iff.mpr hd) rfl⟩
  -- and so do those of four
  iterate 3
    obtain ⟨b, _, rfl, hb, c, _, rfl, hc, d, _, rfl, hd, e, _, rfl, he, rfl⟩ := hfits
    exact ⟨_, .four (by omega) (by omega) (isSecond_iff.mpr (by omega))
      (isContinuation_iff.mpr hd) (isContinuation_iff.mpr he) rfl⟩

/-- Within the ranges of the encoder a sequence is of one of the kinds. -/
theorem CharBytes.wellFormed {bytes : Bytes} {n : Nat} (h : CharBytes bytes n) :
    WellFormed bytes := by
  unfold WellFormed
  simp only [kinds, List.mem_cons, List.not_mem_nil, or_false, exists_eq_or_imp, exists_eq_left]
  -- the length of the sequence leaves out the kinds of other lengths
  cases h with
  | one hb =>
    simp only [Fits, UInt8.le_iff_toNat_le, UInt8.reduceToNat, and_true, and_false, or_false]
    omega
  | two hb hb' hc =>
    rw [isContinuation_iff] at hc
    simp only [Fits, UInt8.le_iff_toNat_le, UInt8.reduceToNat, and_true, and_false, or_false,
      false_or]
    omega
  | three hb hb' hc hd =>
    rw [isSecond_iff] at hc
    rw [isContinuation_iff] at hd
    simp only [Fits, UInt8.le_iff_toNat_le, UInt8.reduceToNat, and_true, and_false, or_false,
      false_or]
    omega
  | four hb hb' hc hd he =>
    rw [isSecond_iff] at hc
    rw [isContinuation_iff] at hd he
    simp only [Fits, UInt8.le_iff_toNat_le, UInt8.reduceToNat, and_true, and_false,
      false_or]
    omega

/-- The well-formed sequences are the encodings of characters. -/
theorem wellFormed_iff_exists_encodeChar {bytes : Bytes} :
    WellFormed bytes ↔ ∃ c, String.utf8EncodeChar c = bytes := by
  constructor
  · intro h
    obtain ⟨n, hn⟩ := exists_charBytes_of_wellFormed h
    exact ⟨_, hn.encodeChar_ofNat⟩
  · rintro ⟨c, rfl⟩
    exact (charBytes_encodeChar c).wellFormed

/-! ### Texts -/

theorem valid_encode (s : String) : Valid (encode s) := by
  rw [encode]
  induction s.toList with
  | nil => exact .nil
  | cons c cs ih =>
    rw [List.flatMap_cons]
    exact .append (wellFormed_iff_exists_encodeChar.mpr ⟨c, rfl⟩) ih

/-- The valid sequences are the encodings of texts. -/
theorem valid_iff_exists_encode {bytes : Bytes} : Valid bytes ↔ ∃ s, encode s = bytes := by
  constructor
  · intro h
    induction h with
    | nil => exact ⟨"", rfl⟩
    | append hbytes _ ih =>
      obtain ⟨c, rfl⟩ := wellFormed_iff_exists_encodeChar.mp hbytes
      obtain ⟨s, rfl⟩ := ih
      refine ⟨String.singleton c ++ s, ?_⟩
      rw [encode_append]
      simp [encode]
  · rintro ⟨s, rfl⟩
    exact valid_encode s

/-- Encoding gives back the bytes exactly if they are valid. -/
theorem encode_decodeLossy_eq_iff {bytes : Bytes} :
    encode (decodeLossy bytes) = bytes ↔ Valid bytes := by
  rw [valid_iff_exists_encode]
  constructor
  · intro h
    exact ⟨_, h⟩
  · rintro ⟨s, rfl⟩
    rw [decodeLossy_encode]

/-! ### Laws -/

/-- Bytes may be cut where a character may begin and decoded in parts.  The bytes are those of the
text exactly if they are valid, those of a text always are decoded to it, and bytes that were
decoded and encoded once say the same text.  The ASCII characters of the text are the bytes below
0x80, in order. -/
theorem decodeLossy_laws :
    (∀ as bs, StartsAfresh bs → decodeLossy (as ++ bs) = decodeLossy as ++ decodeLossy bs) ∧
    (∀ bs, encode (decodeLossy bs) = bs ↔ Valid bs) ∧
    (∀ s, decodeLossy (encode s) = s) ∧
    (∀ bs, decodeLossy (encode (decodeLossy bs)) = decodeLossy bs) ∧
    ∀ bs, (decodeLossy bs).toList.filter (·.toNat < 0x80)
      = (bs.filter (·.toNat < 0x80)).map fun b => Char.ofNat b.toNat := by
  refine ⟨fun as bs h => decodeLossy_append as h, fun bs => encode_decodeLossy_eq_iff,
    decodeLossy_encode, fun bs => decodeLossy_encode _, filter_toList_decodeLossy⟩

/-- A sequence that breaks off in front of a comma. -/
theorem decodeLossy_laws_comma :
    StartsAfresh [0x2C, 0x41] ∧ decodeLossy [0xE2, 0x82, 0x2C, 0x41] = "\uFFFD" ++ ",A" := by
  obtain ⟨hcut, -⟩ := decodeLossy_laws
  have hcomma : StartsAfresh [0x2C, 0x41] := startsAfresh_cons_of_lt (by decide) _
  have hrun : decodeLossy [0xE2, 0x82] = "\uFFFD" := by decide
  have hrest : decodeLossy [0x2C, 0x41] = ",A" := by decide
  rw [← hrun, ← hrest]
  exact ⟨hcomma, hcut [0xE2, 0x82] _ hcomma⟩

end TunnelEvents.Utf8
