import TunnelEvents.Text.Utf8

/-!
# The bytes of a character

A character is encoded by a lead byte, which tells how many bytes there are, and continuation
bytes.  The value of the character is a number in base 64 whose digits are the bytes less their
marks.  The ranges of the bytes are such that each sequence within them is the encoding of the
character of its value.

## Main definitions

* `Utf8.IsContinuation`, `Utf8.IsSecond` — the ranges of the bytes after the lead byte.
* `Utf8.CharBytes` — the sequences within the ranges, with their values.

## Main results

* `CharBytes.encodeChar_ofNat`, `charBytes_encodeChar` — **the encodings of characters are the
  sequences within the ranges.**
-/

namespace TunnelEvents.Utf8

/-! ### Ranges -/

/-- The range of the byte after a lead byte. -/
def secondRange (lead : UInt8) : UInt8 × UInt8 :=
  if lead.toNat = 0xE0 then (0xA0, 0xBF)
  else if lead.toNat = 0xED then (0x80, 0x9F)
  else if lead.toNat = 0xF0 then (0x90, 0xBF)
  else if lead.toNat = 0xF4 then (0x80, 0x8F)
  else (0x80, 0xBF)

/-- A byte that may follow a lead byte. -/
def IsSecond (lead b : UInt8) : Prop := (secondRange lead).1 ≤ b ∧ b ≤ (secondRange lead).2

/-- A byte that may follow the second one of a sequence. -/
def IsContinuation (b : UInt8) : Prop := 0x80 ≤ b ∧ b ≤ 0xBF

theorem isContinuation_iff {b : UInt8} : IsContinuation b ↔ 0x80 ≤ b.toNat ∧ b.toNat ≤ 0xBF := by
  unfold IsContinuation
  rw [UInt8.le_iff_toNat_le, UInt8.le_iff_toNat_le]
  rfl

/-- The second byte keeps out of the overlong forms, the surrogates and the values above
U+10FFFF. -/
theorem isSecond_iff {lead b : UInt8} :
    IsSecond lead b ↔ 0x80 ≤ b.toNat ∧ b.toNat ≤ 0xBF ∧ (lead.toNat = 0xE0 → 0xA0 ≤ b.toNat) ∧
      (lead.toNat = 0xED → b.toNat ≤ 0x9F) ∧ (lead.toNat = 0xF0 → 0x90 ≤ b.toNat) ∧
      (lead.toNat = 0xF4 → b.toNat ≤ 0x8F) := by
  unfold IsSecond secondRange
  rw [UInt8.le_iff_toNat_le, UInt8.le_iff_toNat_le]
  -- four lead bytes narrow the range, each at one end
  split
  · simp only [UInt8.reduceToNat]; omega
  · split
    · simp only [UInt8.reduceToNat]; omega
    · split
      · simp only [UInt8.reduceToNat]; omega
      · split
        · simp only [UInt8.reduceToNat]; omega
        · simp only [UInt8.reduceToNat]; omega

theorem IsSecond.isContinuation {lead b : UInt8} (h : IsSecond lead b) : IsContinuation b := by
  rw [isSecond_iff] at h
  rw [isContinuation_iff]
  omega

/-- The byte sequences within the ranges, each with its value. -/
inductive CharBytes : Bytes → Nat → Prop
  /-- An ASCII character. -/
  | one {b : UInt8} {n : Nat} : b.toNat < 0x80 → n = b.toNat → CharBytes [b] n
  /-- A lead byte and one more. -/
  | two {b c : UInt8} {n : Nat} : 0xC2 ≤ b.toNat → b.toNat ≤ 0xDF → IsContinuation c →
    n = (b.toNat - 0xC0) * 64 + (c.toNat - 0x80) → CharBytes [b, c] n
  /-- A lead byte and two more. -/
  | three {b c d : UInt8} {n : Nat} : 0xE0 ≤ b.toNat → b.toNat ≤ 0xEF → IsSecond b c →
    IsContinuation d →
    n = ((b.toNat - 0xE0) * 64 + (c.toNat - 0x80)) * 64 + (d.toNat - 0x80) →
    CharBytes [b, c, d] n
  /-- A lead byte and three more. -/
  | four {b c d e : UInt8} {n : Nat} : 0xF0 ≤ b.toNat → b.toNat ≤ 0xF4 → IsSecond b c →
    IsContinuation d → IsContinuation e →
    n = (((b.toNat - 0xF0) * 64 + (c.toNat - 0x80)) * 64 + (d.toNat - 0x80)) * 64
      + (e.toNat - 0x80) →
    CharBytes [b, c, d, e] n

/-! ### Characters and their bytes -/

theorem toNat_ofNat_of_isValidChar {n : Nat} (h : n.isValidChar) : (Char.ofNat n).toNat = n := by
  unfold Char.ofNat
  rw [dif_pos h]
  rfl

/-- The value of a sequence within the ranges is that of a character. -/
theorem CharBytes.isValidChar {bs : Bytes} {n : Nat} (h : CharBytes bs n) : n.isValidChar := by
  unfold Nat.isValidChar
  cases h with
  | one hb hn => omega
  | two hb hb' hc hn =>
    rw [isContinuation_iff] at hc
    omega
  | three hb hb' hc hd hn =>
    rw [isSecond_iff] at hc
    rw [isContinuation_iff] at hd
    omega
  | four hb hb' hc hd he hn =>
    rw [isSecond_iff] at hc
    rw [isContinuation_iff] at hd he
    omega

theorem ofNat_eq_of_eq_toNat (b : UInt8) {n : Nat} (h : n = b.toNat) : UInt8.ofNat n = b := by
  rw [h, UInt8.ofNat_toNat]

/-- A sequence within the ranges encodes the character of its value. -/
theorem CharBytes.encodeChar_ofNat {bs : Bytes} {n : Nat} (h : CharBytes bs n) :
    String.utf8EncodeChar (Char.ofNat n) = bs := by
  have hval : (Char.ofNat n).val.toNat = n := toNat_ofNat_of_isValidChar h.isValidChar
  unfold String.utf8EncodeChar
  simp only [hval]
  -- the ranges put the value where the encoder writes just as many bytes
  cases h with
  | @one b _ hb hn =>
    rw [if_pos (by omega), ofNat_eq_of_eq_toNat b hn]
  | @two b c _ hb hb' hc hn =>
    rw [isContinuation_iff] at hc
    rw [if_neg (by omega), if_pos (by omega), ofNat_eq_of_eq_toNat b (by omega),
      ofNat_eq_of_eq_toNat c (by omega)]
  | @three b c d _ hb hb' hc hd hn =>
    rw [isSecond_iff] at hc
    rw [isContinuation_iff] at hd
    rw [if_neg (by omega), if_neg (by omega), if_pos (by omega), ofNat_eq_of_eq_toNat b (by omega),
      ofNat_eq_of_eq_toNat c (by omega), ofNat_eq_of_eq_toNat d (by omega)]
  | @four b c d e _ hb hb' hc hd he hn =>
    rw [isSecond_iff] at hc
    rw [isContinuation_iff] at hd he
    rw [if_neg (by omega), if_neg (by omega), if_neg (by omega),
      ofNat_eq_of_eq_toNat b (by omega), ofNat_eq_of_eq_toNat c (by omega),
      ofNat_eq_of_eq_toNat d (by omega), ofNat_eq_of_eq_toNat e (by omega)]

/-- The encoding of a character is a sequence within the ranges, with the value of the
character. -/
theorem charBytes_encodeChar (c : Char) : CharBytes (String.utf8EncodeChar c) c.toNat := by
  have hvalid : c.val.toNat < 0xD800 ∨ 0xDFFF < c.val.toNat ∧ c.val.toNat < 0x110000 := c.valid
  show CharBytes _ c.val.toNat
  unfold String.utf8EncodeChar
  generalize c.val.toNat = n at hvalid
  dsimp only
  -- the encoder decides by the value how many bytes there are
  by_cases h1 : n ≤ 0x7F
  · rw [if_pos h1]
    refine .one ?_ ?_ <;> simp only [UInt8.toNat_ofNat'] <;> omega
  · rw [if_neg h1]
    by_cases h2 : n ≤ 0x7FF
    · rw [if_pos h2]
      refine .two ?_ ?_ ?_ ?_ <;> simp only [isContinuation_iff, UInt8.toNat_ofNat'] <;> omega
    · rw [if_neg h2]
      by_cases h3 : n ≤ 0xFFFF
      · rw [if_pos h3]
        refine .three ?_ ?_ ?_ ?_ ?_ <;>
          simp only [isContinuation_iff, isSecond_iff, UInt8.toNat_ofNat'] <;> omega
      · rw [if_neg h3]
        refine .four ?_ ?_ ?_ ?_ ?_ ?_ <;>
          simp only [isContinuation_iff, isSecond_iff, UInt8.toNat_ofNat'] <;> omega

end TunnelEvents.Utf8
