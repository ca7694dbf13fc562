import TunnelEvents.Json.Grammar

/-!
# Reading a string in any spelling

Each way to spell a character is resolved into pieces of its own, and these join to the character
whatever follows.  So the spellings of a text can be mixed freely, and the scan, which looks only
for the closing quotation mark, passes over them one by one.

## Main results

* `CharSpelling.resolves` — the pieces of a spelled character.
* `TextSpelling.content?_eq` — **a spelled text is read as that text.**
* `textSpelling_escape` — what is written is a spelling.
* `TextSpelling.tokens?_quoted` — the scan passes over a spelled text.
-/

namespace TunnelEvents.Json

namespace StringLiteral

/-! ### Character classes and units -/

theorem isPlain_iff {c : Char} :
    isPlain c = true ↔ 0x20 ≤ c.toNat ∧ c ≠ '"' ∧ c ≠ '\\' := by
  simp only [isPlain, Bool.and_eq_true, decide_eq_true_iff, and_assoc]

theorem isLeading_iff {n : Nat} : isLeading n = true ↔ 0xD800 ≤ n ∧ n < 0xDC00 := by
  rw [isLeading, Bool.and_eq_true, decide_eq_true_iff, decide_eq_true_iff]

theorem isTrailing_iff {n : Nat} : isTrailing n = true ↔ 0xDC00 ≤ n ∧ n < 0xE000 := by
  rw [isTrailing, Bool.and_eq_true, decide_eq_true_iff, decide_eq_true_iff]

/-! ### Pieces -/

theorem pieces?_plain {c : Char} (h : isPlain c = true) (cs : List Char) :
    pieces? (c :: cs) = (pieces? cs).map (.char c :: ·) := by
  have hne : c ≠ '\\' := by
    rintro rfl
    exact absurd h (by decide)
  rw [pieces?, if_pos h]
  · rintro a b d e ds rfl
    exact absurd rfl hne
  · rintro letter ds rfl
    exact absurd rfl hne

theorem pieces?_short {letter c : Char} (h : ofShortEscape? letter = some c) (cs : List Char) :
    pieces? ('\\' :: letter :: cs) = (pieces? cs).map (.char c :: ·) := by
  have hne : letter ≠ 'u' := by
    rintro rfl
    cases h
  rw [pieces?, h]
  · cases pieces? cs <;> rfl
  · rintro a b d e ds rfl
    exact absurd rfl hne

theorem pieces?_unit {p q r s : Char} {n : Nat} (h : hexUnit? p q r s = some n) (cs : List Char) :
    pieces? ('\\' :: 'u' :: p :: q :: r :: s :: cs) = (pieces? cs).map (.unit n :: ·) := by
  rw [pieces?, h]
  cases pieces? cs <;> rfl

/-! ### Units -/

theorem join?_char (c : Char) (ps : List Piece) :
    join? (.char c :: ps) = (join? ps).map (c :: ·) := by
  rw [join?]

theorem join?_unit {n : Nat} (h : n < 0xD800 ∨ 0xE000 ≤ n) (ps : List Piece) :
    join? (.unit n :: ps) = (join? ps).map (Char.ofNat n :: ·) := by
  have hleading : isLeading n = false := by
    rw [Bool.eq_false_iff, ne_eq, isLeading_iff]
    omega
  have htrailing : isTrailing n = false := by
    rw [Bool.eq_false_iff, ne_eq, isTrailing_iff]
    omega
  rw [join?.eq_def]
  simp only [hleading, htrailing]
  rfl

theorem join?_pair {n m : Nat} (hn : isLeading n = true) (hm : isTrailing m = true)
    (ps : List Piece) : join? (.unit n :: .unit m :: ps) = (join? ps).map (pair n m :: ·) := by
  rw [join?, if_pos hn, if_pos hm]

/-! ### Hexadecimal digits -/

/-- The unit that two bytes written in hexadecimal stand for. -/
theorem hexUnit?_zero_zero_byteDigits {n : Nat} (h : n < 0x100) :
    hexUnit? '0' '0' (Nat.digitChar (n / 16)) (Nat.digitChar (n % 16)) = some n := by
  have hzero : Hexadecimal.digit? '0' = some 0 := by decide
  have hhigh := Hexadecimal.digit?_digitChar (n := n / 16) (by omega)
  have hlow := Hexadecimal.digit?_digitChar (n := n % 16) (by omega)
  have hsum : (0 * 16 + 0) * 256 + (n / 16 * 16 + n % 16) = n := by omega
  simp only [hexUnit?, hzero, hhigh, hlow, Option.bind_eq_bind, Option.bind_some, hsum,
    Option.pure_def]

/-- The four characters of a unit are hexadecimal digits. -/
theorem digits_of_hexUnit?_eq_some {p q r s : Char} {n : Nat} (h : hexUnit? p q r s = some n) :
    ∃ a b c d, Hexadecimal.digit? p = some a ∧ Hexadecimal.digit? q = some b ∧
      Hexadecimal.digit? r = some c ∧ Hexadecimal.digit? s = some d ∧
      n = (a * 16 + b) * 256 + (c * 16 + d) := by
  simp only [hexUnit?, Option.bind_eq_bind, Option.bind_eq_some_iff, Option.pure_def] at h
  obtain ⟨a, ha, b, hb, c, hc, d, hd, h⟩ := h
  exact ⟨a, b, c, d, ha, hb, hc, hd, (Option.some.inj h).symm⟩

end StringLiteral

open StringLiteral

/-! ### Spelled characters -/

/-- A spelled character is resolved into pieces of its own, which join to that character. -/
theorem CharSpelling.resolves {c : Char} {spelled : List Char} (h : CharSpelling c spelled) :
    ∃ ps : List Piece, (∀ rest, pieces? (spelled ++ rest) = (pieces? rest).map (ps ++ ·)) ∧
      ∀ qs, join? (ps ++ qs) = (join? qs).map (c :: ·) := by
  cases h with
  | plain hc => exact ⟨[.char c], pieces?_plain hc, join?_char c⟩
  | short hc => exact ⟨[.char c], pieces?_short hc, join?_char c⟩
  | unit hn hrange => exact ⟨[.unit _], pieces?_unit hn, join?_unit hrange⟩
  | @pair p q r s p' q' r' s' n m hn hm hn1 hn2 hm1 hm2 =>
    have hjoin := join?_pair (isLeading_iff.mpr ⟨hn1, hn2⟩) (isTrailing_iff.mpr ⟨hm1, hm2⟩)
    refine ⟨[.unit n, .unit m], fun rest => ?_, hjoin⟩
    -- the second unit is among what follows the first
    calc
      pieces? (['\\', 'u', p, q, r, s, '\\', 'u', p', q', r', s'] ++ rest)
        = (pieces? ('\\' :: 'u' :: p' :: q' :: r' :: s' :: rest)).map (.unit n :: ·) :=
          pieces?_unit hn _
      _ = ((pieces? rest).map (.unit m :: ·)).map (.unit n :: ·) := by rw [pieces?_unit hm]
      _ = (pieces? rest).map ([.unit n, .unit m] ++ ·) := by rw [Option.map_map]; rfl

/-- A spelled text is read as that text. -/
theorem TextSpelling.content?_eq {cs spelled : List Char} (h : TextSpelling cs spelled) :
    content? spelled = some cs := by
  -- the pieces are carried along, since only they show what joins a character in front
  have key : ∃ ps, pieces? spelled = some ps ∧ join? ps = some cs := by
    induction h with
    | nil => exact ⟨[], rfl, rfl⟩
    | cons hc _ ih =>
      obtain ⟨ps, hpieces, hjoin⟩ := hc.resolves
      obtain ⟨qs, hqs, hcs⟩ := ih
      refine ⟨ps ++ qs, ?_, ?_⟩
      · rw [hpieces, hqs, Option.map_some]
      · rw [hjoin, hcs, Option.map_some]
  obtain ⟨ps, hps, hjoin⟩ := key
  rw [content?, hps, Option.bind_some, hjoin]

/-! ### What is written -/

/-- The three ways to write a character: by a short escape, as a unit, or as itself. -/
theorem StringLiteral.escape_cases (c : Char) :
    (∃ letter, ofShortEscape? letter = some c ∧ escape c = ['\\', letter]) ∨
      (c.toNat < 0x20 ∧ escape c = ['\\', 'u', '0', '0'] ++ Hexadecimal.byteDigits c.toNat) ∨
      (isPlain c = true ∧ escape c = [c]) := by
  unfold escape
  split
  case isTrue h => exact .inl ⟨'"', by rw [h]; rfl, rfl⟩
  case isFalse hquote =>
  split
  case isTrue h => exact .inl ⟨'\\', by rw [h]; rfl, rfl⟩
  case isFalse hbackslash =>
  split
  case isTrue h => exact .inl ⟨'b', by rw [h]; rfl, rfl⟩
  case isFalse _ =>
  split
  case isTrue h => exact .inl ⟨'f', by rw [h]; rfl, rfl⟩
  case isFalse _ =>
  split
  case isTrue h => exact .inl ⟨'n', by rw [h]; rfl, rfl⟩
  case isFalse _ =>
  split
  case isTrue h => exact .inl ⟨'r', by rw [h]; rfl, rfl⟩
  case isFalse _ =>
  split
  case isTrue h => exact .inl ⟨'t', by rw [h]; rfl, rfl⟩
  case isFalse _ =>
  split
  case isTrue h => exact .inr (.inl ⟨h, rfl⟩)
  case isFalse hlow =>
    have hplain := isPlain_iff.mpr ⟨Nat.le_of_not_lt hlow, hquote, hbackslash⟩
    exact .inr (.inr ⟨hplain, rfl⟩)

/-- The letters of the short escapes. -/
theorem StringLiteral.mem_of_ofShortEscape?_eq_some {letter c : Char}
    (h : ofShortEscape? letter = some c) :
    letter ∈ ['"', '\\', '/', 'b', 'f', 'n', 'r', 't'] := by
  simp only [ofShortEscape?] at h
  grind

theorem StringLiteral.le_of_ofShortEscape?_eq_some {letter c : Char}
    (h : ofShortEscape? letter = some c) : 0x20 ≤ letter.toNat := by
  have hall : ['"', '\\', '/', 'b', 'f', 'n', 'r', 't'].all (fun l => 0x20 ≤ l.toNat) = true := rfl
  exact of_decide_eq_true (List.all_eq_true.mp hall letter (mem_of_ofShortEscape?_eq_some h))

/-- No control character stands in what is written. -/
theorem StringLiteral.le_of_mem_escape {c d : Char} (h : d ∈ escape c) : 0x20 ≤ d.toNat := by
  obtain ⟨letter, hletter, heq⟩ | ⟨hlow, heq⟩ | ⟨hplain, heq⟩ := escape_cases c
  · rw [heq] at h
    rcases List.mem_cons.mp h with rfl | h
    · decide
    · rw [List.mem_singleton.mp h]
      exact le_of_ofShortEscape?_eq_some hletter
  · -- a unit is written in hexadecimal digits
    have hdigit : ∀ n < 16, 0x20 ≤ (Nat.digitChar n).toNat := by decide
    have hhigh := hdigit (c.toNat / 16) (by omega)
    have hlow := hdigit (c.toNat % 16) (by omega)
    simp only [heq, Hexadecimal.byteDigits, List.cons_append, List.nil_append, List.mem_cons,
      List.not_mem_nil, or_false] at h
    rcases h with rfl | rfl | rfl | rfl | rfl | rfl
    · decide
    · decide
    · decide
    · decide
    · exact hhigh
    · exact hlow
  · rw [heq] at h
    obtain rfl := List.mem_singleton.mp h
    exact (isPlain_iff.mp hplain).1

/-- A character is written in one of its spellings. -/
theorem charSpelling_escape (c : Char) : CharSpelling c (escape c) := by
  obtain ⟨letter, hletter, heq⟩ | ⟨hlow, heq⟩ | ⟨hplain, heq⟩ := escape_cases c
  · rw [heq]
    exact .short hletter
  · have hunit := hexUnit?_zero_zero_byteDigits (n := c.toNat) (by omega)
    have hspelled := CharSpelling.unit hunit (.inl (by omega))
    rw [Char.ofNat_toNat] at hspelled
    rw [heq]
    exact hspelled
  · rw [heq]
    exact .plain hplain

/-- A text is written in one of its spellings. -/
theorem textSpelling_escape (cs : List Char) : TextSpelling cs (cs.flatMap escape) := by
  induction cs with
  | nil => exact .nil
  | cons c cs ih =>
    rw [List.flatMap_cons]
    exact .cons (charSpelling_escape c) ih

/-! ### The closing quotation mark -/

namespace Scan

theorem tokens?_quoted_cons {c : Char} (hquote : c ≠ '"') (hbackslash : c ≠ '\\')
    (read cs : List Char) : (quoted read).tokens? (c :: cs) = (quoted (c :: read)).tokens? cs := by
  apply tokens?_cons_of_step
  rw [step, if_neg hquote, if_neg hbackslash]

theorem tokens?_quoted_escape (c : Char) (read cs : List Char) :
    (quoted read).tokens? ('\\' :: c :: cs) = (quoted (c :: '\\' :: read)).tokens? cs := by
  have hbackslash : (quoted read).step '\\' = some ([], escaped ('\\' :: read)) := by
    rw [step, if_neg (by decide), if_pos rfl]
  rw [tokens?_cons_of_step hbackslash, tokens?_cons_of_step]
  rw [step]

/-- The end of a string completes its token. -/
theorem tokens?_quoted_close (read cs : List Char) :
    (quoted read).tokens? ('"' :: cs)
      = (stringToken? read.reverse).bind fun t => (idle.tokens? cs).map (t :: ·) := by
  rw [tokens?_cons, step, if_pos rfl]
  cases stringToken? read.reverse <;> rfl

/-- A hexadecimal digit is neither a quotation mark nor a backslash. -/
theorem tokens?_quoted_digit {c : Char} {n : Nat} (h : Hexadecimal.digit? c = some n)
    (read cs : List Char) : (quoted read).tokens? (c :: cs) = (quoted (c :: read)).tokens? cs := by
  apply tokens?_quoted_cons
  · rintro rfl
    cases h
  · rintro rfl
    cases h

theorem tokens?_quoted_unit {p q r s : Char} {n : Nat} (h : hexUnit? p q r s = some n)
    (read cs : List Char) :
    (quoted read).tokens? ('\\' :: 'u' :: p :: q :: r :: s :: cs)
      = (quoted (s :: r :: q :: p :: 'u' :: '\\' :: read)).tokens? cs := by
  obtain ⟨a, b, c, d, hp, hq, hr, hs, -⟩ := digits_of_hexUnit?_eq_some h
  rw [tokens?_quoted_escape, tokens?_quoted_digit hp, tokens?_quoted_digit hq,
    tokens?_quoted_digit hr, tokens?_quoted_digit hs]

end Scan

/-- The scan passes over a spelled character. -/
theorem CharSpelling.tokens?_quoted {c : Char} {spelled : List Char} (h : CharSpelling c spelled)
    (read rest : List Char) :
    (Scan.quoted read).tokens? (spelled ++ rest)
      = (Scan.quoted (spelled.reverse ++ read)).tokens? rest := by
  cases h with
  | plain hc =>
    obtain ⟨-, hquote, hbackslash⟩ := isPlain_iff.mp hc
    exact Scan.tokens?_quoted_cons hquote hbackslash read rest
  | short hc => exact Scan.tokens?_quoted_escape _ read rest
  | unit hn hrange => exact Scan.tokens?_quoted_unit hn read rest
  | pair hn hm hn1 hn2 hm1 hm2 =>
    exact (Scan.tokens?_quoted_unit hn read _).trans (Scan.tokens?_quoted_unit hm _ rest)

/-- The scan passes over a spelled text. -/
theorem TextSpelling.tokens?_quoted {cs spelled : List Char} (h : TextSpelling cs spelled)
    (read rest : List Char) :
    (Scan.quoted read).tokens? (spelled ++ rest)
      = (Scan.quoted (spelled.reverse ++ read)).tokens? rest := by
  induction h generalizing read with
  | nil => rfl
  | cons hc _ ih =>
    rw [List.append_assoc, hc.tokens?_quoted, ih, List.reverse_append, List.append_assoc]

end TunnelEvents.Json
