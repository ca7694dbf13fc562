import TunnelEvents.Proofs.Json.Numeral
import TunnelEvents.Proofs.Json.StringLiteral

/-!
# The tokens of a spelled text

The scan ends a word or a numeral only when it meets a character that cannot go on with it.  So a
text that spells tokens is cut into those tokens if no two words or numerals follow each other; what
comes after any other token does not matter.

## Main definitions

* `Token.isBare` — the tokens without a mark at their end.
* `Separated` — no two bare tokens follow each other.
* `Stops` — a text does not go on with a word or a numeral.
* `Scan.Collects` — what scans of words and numerals have in common.
* `Follows` — a token sequence may stand after any token.

## Main results

* `TokenSpelling.tokens?_idle` — a spelled token is read, whatever follows it.
* `Spelling.tokens?_append`, `Spelling.tokens?_eq` — **a spelling of separated tokens is cut into
  those tokens**, before and at the end of a text.
* `Spelling.eq_of_tokens?` — a text that is cut into tokens spells no others.
* `separated_tokens` — the tokens of a value are separated.
-/

namespace TunnelEvents.Json

/-- A word or a numeral, which has no mark at its end. -/
def Token.isBare : Token → Bool
  | .null => true
  | .bool _ => true
  | .number _ => true
  | _ => false

/-- No two bare tokens follow each other. -/
def Separated : List Token → Prop
  | [] => True
  | t :: ts => (t.isBare = true → ∀ u ∈ ts.head?, u.isBare = false) ∧ Separated ts

/-- A text does not go on with a word or a numeral. -/
def Stops (cs : List Char) : Prop := ∀ c ∈ cs.head?, isWordChar c = false ∧ isNumeralChar c = false

/-! ### Character classes -/

theorem isBlank_iff {c : Char} :
    isBlank c = true ↔ c.toNat = 0x20 ∨ c.toNat = 0x09 ∨ c.toNat = 0x0A ∨ c.toNat = 0x0D := by
  simp only [isBlank, Bool.or_eq_true, decide_eq_true_iff, or_assoc, ← Char.toNat_inj]
  rfl

theorem isWordChar_iff {c : Char} : isWordChar c = true ↔ 0x61 ≤ c.toNat ∧ c.toNat ≤ 0x7A := by
  rw [isWordChar, Bool.and_eq_true, decide_eq_true_iff, decide_eq_true_iff, Char.le_def,
    Char.le_def, UInt32.le_iff_toNat_le, UInt32.le_iff_toNat_le]
  rfl

theorem startsNumeral_iff {c : Char} :
    startsNumeral c = true ↔ (0x30 ≤ c.toNat ∧ c.toNat ≤ 0x39) ∨ c.toNat = 0x2D := by
  rw [startsNumeral, Bool.or_eq_true, decide_eq_true_iff, Decimal.isDigit_iff, ← Char.toNat_inj]
  rfl

theorem isNumeralChar_iff {c : Char} :
    isNumeralChar c = true ↔ (0x30 ≤ c.toNat ∧ c.toNat ≤ 0x39) ∨ c.toNat = 0x2D ∨
      c.toNat = 0x2B ∨ c.toNat = 0x2E ∨ c.toNat = 0x65 ∨ c.toNat = 0x45 := by
  simp only [isNumeralChar, Bool.or_eq_true, decide_eq_true_iff, or_assoc, ← Char.toNat_inj,
    Decimal.isDigit_iff]
  rfl

/-- The six punctuation characters and their tokens. -/
theorem punctuation?_cases {c : Char} {t : Token} (h : punctuation? c = some t) :
    (c = '[' ∧ t = .openArray) ∨ (c = ']' ∧ t = .closeArray) ∨
      (c = '\x7b' ∧ t = .openObject) ∨ (c = '\x7d' ∧ t = .closeObject) ∨
      (c = ',' ∧ t = .comma) ∨ (c = ':' ∧ t = .colon) := by
  have hc : c = '[' ∨ c = ']' ∨ c = '\x7b' ∨ c = '\x7d' ∨ c = ',' ∨ c = ':' := by
    simp only [punctuation?] at h
    grind
  obtain rfl | rfl | rfl | rfl | rfl | rfl := hc <;> cases h <;> decide

namespace Scan

/-! ### Where no token has begun -/

theorem tokens?_idle_blank {c : Char} (h : isBlank c = true) (cs : List Char) :
    idle.tokens? (c :: cs) = idle.tokens? cs := by
  apply tokens?_cons_of_step
  rw [step, start, if_pos h]

/-- White space in front is passed over. -/
theorem tokens?_idle_blank_append {blank : List Char} (h : Blank blank) (cs : List Char) :
    idle.tokens? (blank ++ cs) = idle.tokens? cs := by
  induction blank with
  | nil => rfl
  | cons c blank ih =>
    have hrest : Blank blank := fun d hd => h d (List.mem_cons_of_mem c hd)
    rw [List.cons_append, tokens?_idle_blank (h c List.mem_cons_self), ih hrest]

theorem tokens?_idle_quote (cs : List Char) :
    idle.tokens? ('"' :: cs) = (quoted []).tokens? cs := by
  apply tokens?_cons_of_step
  rw [step, start, if_neg (by decide), if_pos rfl]

theorem tokens?_idle_word {c : Char} (h : isWordChar c = true) (cs : List Char) :
    idle.tokens? (c :: cs) = (word [c]).tokens? cs := by
  have hrange := isWordChar_iff.mp h
  have hblank : ¬ isBlank c = true := by
    rw [isBlank_iff]
    omega
  have hquote : c ≠ '"' := by
    rintro rfl
    exact absurd h (by decide)
  apply tokens?_cons_of_step
  rw [step, start, if_neg hblank, if_neg hquote, if_pos h]

theorem tokens?_idle_numeral {c : Char} (h : startsNumeral c = true) (cs : List Char) :
    idle.tokens? (c :: cs) = (numeral [c]).tokens? cs := by
  have hrange := startsNumeral_iff.mp h
  have hblank : ¬ isBlank c = true := by
    rw [isBlank_iff]
    omega
  have hword : ¬ isWordChar c = true := by
    rw [isWordChar_iff]
    omega
  have hquote : c ≠ '"' := by
    rintro rfl
    exact absurd h (by decide)
  apply tokens?_cons_of_step
  rw [step, start, if_neg hblank, if_neg hquote, if_neg hword, if_pos h]

/-! ### Words and numerals -/

/-- A scan takes up the characters of a class, and any other character ends its token. -/
structure Collects (scan : List Char → Scan) (p : Char → Bool)
    (token? : List Char → Option Token) : Prop where
  step_of_mem : ∀ read c, p c = true → (scan read).step c = some ([], scan (c :: read))
  step_of_not_mem : ∀ read c, p c = false →
    (scan read).step c = (token? read.reverse).bind fun t => startAfter t c
  finish_eq : ∀ read, (scan read).finish = (token? read.reverse).map fun t => [t]

theorem collects_word : Collects word isWordChar wordToken? where
  step_of_mem read c h := by rw [step, if_pos h]
  step_of_not_mem read c h := by rw [step, if_neg (by simp [h])]
  finish_eq read := rfl

theorem collects_numeral : Collects numeral isNumeralChar numberToken? where
  step_of_mem read c h := by rw [step, if_pos h]
  step_of_not_mem read c h := by rw [step, if_neg (by simp [h])]
  finish_eq read := rfl

/-- A character that ends a token is read as if none had begun. -/
theorem bind_startAfter (t : Token) (c : Char) (cs : List Char) :
    ((startAfter t c).bind fun r => (r.2.tokens? cs).map (r.1 ++ ·))
      = (idle.tokens? (c :: cs)).map (t :: ·) := by
  rw [tokens?_cons, step, startAfter]
  cases start c with
  | none => rfl
  | some r =>
    simp only [Option.map_some, Option.bind_some, Option.map_map]
    rfl

variable {scan : List Char → Scan} {p : Char → Bool} {token? : List Char → Option Token}

/-- The token ends where the characters of the class do. -/
theorem Collects.tokens?_of_head (h : Collects scan p token?) {rest : List Char}
    (hrest : ∀ c ∈ rest.head?, p c = false) (read : List Char) :
    (scan read).tokens? rest
      = (token? read.reverse).bind fun t => (idle.tokens? rest).map (t :: ·) := by
  cases rest with
  | nil =>
    rw [tokens?_nil, h.finish_eq, tokens?_nil, finish]
    cases token? read.reverse <;> rfl
  | cons c rest =>
    rw [tokens?_cons, h.step_of_not_mem read c (hrest c rfl), Option.bind_assoc]
    simp only [bind_startAfter]

theorem Collects.tokens?_append (h : Collects scan p token?) {cs rest : List Char}
    (hcs : ∀ c ∈ cs, p c = true) (hrest : ∀ c ∈ rest.head?, p c = false) (read : List Char) :
    (scan read).tokens? (cs ++ rest)
      = (token? (read.reverse ++ cs)).bind fun t => (idle.tokens? rest).map (t :: ·) := by
  induction cs generalizing read with
  | nil => simpa using h.tokens?_of_head hrest read
  | cons c cs ih =>
    have hstep := h.step_of_mem read c (hcs c List.mem_cons_self)
    have htail := ih (fun d hd => hcs d (List.mem_cons_of_mem c hd)) (c :: read)
    rw [List.cons_append, tokens?_cons_of_step hstep, htail]
    simp

/-! ### One token -/

/-- A word that is followed by neither a word nor a numeral is read as its token. -/
theorem tokens?_idle_word_append {c : Char} {cs rest : List Char} {t : Token}
    (hc : isWordChar c = true) (hcs : cs.all isWordChar = true)
    (ht : wordToken? (c :: cs) = some t) (hrest : Stops rest) :
    idle.tokens? (c :: (cs ++ rest)) = (idle.tokens? rest).map (t :: ·) := by
  have hread := collects_word.tokens?_append (List.all_eq_true.mp hcs)
    (fun d hd => (hrest d hd).1) [c]
  rw [tokens?_idle_word hc, hread, List.reverse_singleton, List.singleton_append, ht,
    Option.bind_some]

/-- A numeral is read as its token, unless it exceeds the finite range. -/
theorem numberToken?_spelling {n : Numeral} (hn : n.Valid) :
    numberToken? n.spelling = if n.isFinite then some (.number n) else none := by
  rw [numberToken?, Numeral.ofSpelling?_spelling hn, Option.bind_some]

theorem tokens?_idle_numeral_append {n : Numeral} {rest : List Char} (hn : n.Valid)
    (hrest : Stops rest) :
    idle.tokens? (n.spelling ++ rest)
      = if n.isFinite then (idle.tokens? rest).map (.number n :: ·) else none := by
  obtain ⟨c, cs, heq, hc, hcs⟩ := Numeral.exists_spelling_eq_cons hn
  have hread := collects_numeral.tokens?_append hcs (fun d hd => (hrest d hd).2) [c]
  have ht := numberToken?_spelling hn
  rw [heq] at ht ⊢
  rw [List.cons_append, tokens?_idle_numeral hc, hread, List.reverse_singleton,
    List.singleton_append, ht]
  split <;> rfl

theorem tokens?_idle_string_append {s : String} {spelled : List Char}
    (h : TextSpelling s.toList spelled) (rest : List Char) :
    idle.tokens? ('"' :: (spelled ++ '"' :: rest)) = (idle.tokens? rest).map (.string s :: ·) := by
  have hread : (spelled.reverse ++ []).reverse = spelled := by simp
  have ht : stringToken? spelled = some (.string s) := by
    rw [stringToken?, h.content?_eq, Option.map_some, String.ofList_toList]
  rw [tokens?_idle_quote, h.tokens?_quoted, tokens?_quoted_close, hread, ht, Option.bind_some]

theorem tokens?_idle_punctuation {c : Char} {t : Token} (h : punctuation? c = some t)
    (cs : List Char) : idle.tokens? (c :: cs) = (idle.tokens? cs).map (t :: ·) := by
  have hstart : start c = some ([t], idle) := by
    obtain ⟨rfl, rfl⟩ | ⟨rfl, rfl⟩ | ⟨rfl, rfl⟩ | ⟨rfl, rfl⟩ | ⟨rfl, rfl⟩ | ⟨rfl, rfl⟩ :=
      punctuation?_cases h <;> rfl
  rw [tokens?_cons, step, hstart]
  rfl

end Scan

/-- A spelled token is read, whatever follows it; only a bare one needs an end. -/
theorem TokenSpelling.tokens?_idle {t : Token} {spelled rest : List Char}
    (h : TokenSpelling t spelled) (hfinite : ∀ n, t = .number n → n.isFinite = true)
    (hrest : t.isBare = true → Stops rest) :
    Scan.idle.tokens? (spelled ++ rest) = (Scan.idle.tokens? rest).map (t :: ·) := by
  cases h with
  | string hs =>
    rw [List.cons_append, List.cons_append, List.append_assoc]
    exact Scan.tokens?_idle_string_append hs rest
  | number hn =>
    rw [Scan.tokens?_idle_numeral_append hn (hrest rfl), if_pos (hfinite _ rfl)]
  | fixed hstring hnumber =>
    cases t with
    | openArray => exact Scan.tokens?_idle_punctuation rfl rest
    | closeArray => exact Scan.tokens?_idle_punctuation rfl rest
    | openObject => exact Scan.tokens?_idle_punctuation rfl rest
    | closeObject => exact Scan.tokens?_idle_punctuation rfl rest
    | comma => exact Scan.tokens?_idle_punctuation rfl rest
    | colon => exact Scan.tokens?_idle_punctuation rfl rest
    | null => exact Scan.tokens?_idle_word_append rfl rfl rfl (hrest rfl)
    | bool b =>
      cases b with
      | false => exact Scan.tokens?_idle_word_append rfl rfl rfl (hrest rfl)
      | true => exact Scan.tokens?_idle_word_append rfl rfl rfl (hrest rfl)
    | number n => exact absurd rfl (hnumber n)
    | string s => exact absurd rfl (hstring s)

/-! ### All tokens -/

theorem stops_nil : Stops [] := fun _ hc => absurd hc (Option.not_mem_none _)

/-- White space ends a word or a numeral. -/
theorem Stops.blank_append {blank cs : List Char} (hb : Blank blank) (h : Stops cs) :
    Stops (blank ++ cs) := by
  cases blank with
  | nil => exact h
  | cons c blank =>
    intro d hd
    obtain rfl : c = d := Option.some.inj hd
    have hblank := isBlank_iff.mp (hb c List.mem_cons_self)
    constructor
    · rw [Bool.eq_false_iff, ne_eq, isWordChar_iff]
      omega
    · rw [Bool.eq_false_iff, ne_eq, isNumeralChar_iff]
      omega

/-- So does a token that is not bare. -/
theorem TokenSpelling.stops {t : Token} {spelled : List Char} (h : TokenSpelling t spelled)
    (ht : t.isBare = false) (rest : List Char) : Stops (spelled ++ rest) := by
  intro c hc
  cases h with
  | string hs =>
    obtain rfl := Option.some.inj hc
    decide
  | number hn => cases ht
  | fixed hstring hnumber =>
    cases t with
    | null => cases ht
    | bool b => cases ht
    | number n => cases ht
    | string s => exact absurd rfl (hstring s)
    | _ =>
      obtain rfl := Option.some.inj hc
      decide

theorem Spelling.stops {ts : List Token} {cs rest : List Char} (h : Spelling ts cs)
    (hts : ∀ u ∈ ts.head?, u.isBare = false) (hrest : ts = [] → Stops rest) :
    Stops (cs ++ rest) := by
  cases h with
  | nil hb => exact Stops.blank_append hb (hrest rfl)
  | cons hb ht hr =>
    rw [List.append_assoc, List.append_assoc]
    exact Stops.blank_append hb (ht.stops (hts _ rfl) _)

/-- A spelling of separated tokens is cut into those tokens, whatever follows it; only a bare token
at its end needs what follows to stop. -/
theorem Spelling.tokens?_append {ts : List Token} {cs rest : List Char} (h : Spelling ts cs)
    (hsep : Separated ts) (hfinite : ∀ n, .number n ∈ ts → n.isFinite = true)
    (hend : ∀ u ∈ ts.getLast?, u.isBare = true → Stops rest) :
    tokens? (cs ++ rest) = (tokens? rest).map (ts ++ ·) := by
  -- which token may stand next decides where a bare one ends
  induction h with
  | @nil blank hb =>
    rw [tokens?, Scan.tokens?_idle_blank_append hb]
    exact Option.map_id_apply.symm
  | @cons t ts blank spelled cs hb ht hr ih =>
    have hhead : ∀ n, t = .number n → n.isFinite = true := by
      rintro n rfl
      exact hfinite n List.mem_cons_self
    have hstops : t.isBare = true → Stops (cs ++ rest) := by
      refine fun hbare => hr.stops (hsep.1 hbare) ?_
      rintro rfl
      exact hend t rfl hbare
    have hcs : tokens? (cs ++ rest) = (tokens? rest).map (ts ++ ·) := by
      refine ih hsep.2 (fun n hn => hfinite n (List.mem_cons_of_mem t hn)) fun u hu => hend u ?_
      rw [List.getLast?_cons, Option.mem_def.mp hu, Option.getD_some]
      rfl
    rw [tokens?] at hcs ⊢
    rw [List.append_assoc, List.append_assoc, Scan.tokens?_idle_blank_append hb,
      ht.tokens?_idle hhead hstops, hcs, Option.map_map]
    rfl

/-- A spelling of separated tokens is cut into those tokens. -/
theorem Spelling.tokens?_eq {ts : List Token} {cs : List Char} (h : Spelling ts cs)
    (hsep : Separated ts) (hfinite : ∀ n, .number n ∈ ts → n.isFinite = true) :
    tokens? cs = some ts := by
  have hread : tokens? (cs ++ []) = (tokens? []).map (ts ++ ·) :=
    h.tokens?_append hsep hfinite fun _ _ _ => stops_nil
  rw [List.append_nil] at hread
  rw [hread]
  exact congrArg some (List.append_nil ts)

/-- Before a text that is cut into tokens, a numeral is within the finite range. -/
theorem TokenSpelling.isFinite_of_tokens? {n : Numeral} {spelled rest : List Char}
    {us : List Token} (h : TokenSpelling (.number n) spelled) (hrest : Stops rest)
    (hcut : Scan.idle.tokens? (spelled ++ rest) = some us) : n.isFinite = true := by
  cases h with
  | number hn =>
    rw [Scan.tokens?_idle_numeral_append hn hrest, Option.ite_none_right_eq_some] at hcut
    exact hcut.1
  | fixed _ hnumber => exact absurd rfl (hnumber n)

/-- A spelling of separated tokens is not cut at all if one of its numerals exceeds the finite
range. -/
theorem Spelling.isFinite_of_tokens? {ts us : List Token} {cs : List Char} (h : Spelling ts cs)
    (hsep : Separated ts) (hcut : tokens? cs = some us) :
    ∀ n, .number n ∈ ts → n.isFinite = true := by
  induction h generalizing us with
  | nil hb => exact fun _ hn => absurd hn List.not_mem_nil
  | @cons t ts blank spelled cs hb ht hr ih =>
    have hstops : t.isBare = true → Stops cs := by
      intro hbare
      have hcs : Stops (cs ++ []) := hr.stops (hsep.1 hbare) fun _ => stops_nil
      rwa [List.append_nil] at hcs
    rw [tokens?, List.append_assoc, Scan.tokens?_idle_blank_append hb] at hcut
    have hhead : ∀ n, t = .number n → n.isFinite = true := by
      rintro n rfl
      exact ht.isFinite_of_tokens? (hstops rfl) hcut
    rw [ht.tokens?_idle hhead hstops] at hcut
    obtain ⟨us, hus, -⟩ := Option.map_eq_some_iff.mp hcut
    intro n hn
    rcases List.mem_cons.mp hn with hn | hn
    · exact hhead n hn.symm
    · exact ih hsep.2 hus n hn

/-- So a text spells one sequence of separated tokens, if it is cut into tokens. -/
theorem Spelling.eq_of_tokens? {ts us : List Token} {cs : List Char} (h : Spelling ts cs)
    (hsep : Separated ts) (hcut : tokens? cs = some us) : us = ts := by
  rw [h.tokens?_eq hsep (h.isFinite_of_tokens? hsep hcut)] at hcut
  exact (Option.some.inj hcut).symm

/-! ### The tokens of a value -/

/-- A sequence that may stand after any token. -/
structure Follows (ts : List Token) : Prop where
  separated : Separated ts
  isBare_head : ∀ u ∈ ts.head?, u.isBare = false

theorem Follows.nil : Follows [] := ⟨trivial, fun _ h => absurd h (Option.not_mem_none _)⟩

/-- A token that is not bare may stand between any two tokens. -/
theorem Follows.cons {t : Token} {ts : List Token} (ht : t.isBare = false) (h : Separated ts) :
    Follows (t :: ts) := by
  refine ⟨⟨fun hbare => ?_, h⟩, fun u hu => ?_⟩
  · rw [ht] at hbare
    cases hbare
  · obtain rfl := Option.some.inj hu
    exact ht

mutual

theorem separated_tokens_append (v : Json) {rest : List Token} (h : Follows rest) :
    Separated (v.tokens ++ rest) := by
  -- what comes after is carried along: a bare token may be the last one of a value
  match v with
  | .null => exact ⟨fun _ => h.isBare_head, h.separated⟩
  | .bool b => exact ⟨fun _ => h.isBare_head, h.separated⟩
  | .number n => exact ⟨fun _ => h.isBare_head, h.separated⟩
  | .string s => exact (Follows.cons rfl h.separated).separated
  | .array items =>
    have hclose : Follows (.closeArray :: rest) := .cons rfl h.separated
    rw [tokens, List.cons_append, List.append_assoc]
    exact (Follows.cons rfl (separated_itemTokens_append items hclose)).separated
  | .object members =>
    have hclose : Follows (.closeObject :: rest) := .cons rfl h.separated
    rw [tokens, List.cons_append, List.append_assoc]
    exact (Follows.cons rfl (separated_memberTokens_append members hclose)).separated

theorem separated_itemTokens_append (items : List Json) {rest : List Token} (h : Follows rest) :
    Separated (itemTokens items ++ rest) := by
  match items with
  | [] => exact h.separated
  | [v] => exact separated_tokens_append v h
  | v :: w :: vs =>
    have hcomma : Follows (.comma :: (itemTokens (w :: vs) ++ rest)) :=
      .cons rfl (separated_itemTokens_append (w :: vs) h)
    rw [itemTokens, List.append_assoc]
    exact separated_tokens_append v hcomma

theorem separated_memberTokens_append (members : List (String × Json)) {rest : List Token}
    (h : Follows rest) : Separated (memberTokens members ++ rest) := by
  match members with
  | [] => exact h.separated
  | [(name, v)] =>
    have hvalue : Follows (.colon :: (v.tokens ++ rest)) := .cons rfl (separated_tokens_append v h)
    exact (Follows.cons rfl hvalue.separated).separated
  | (name, v) :: m :: ms =>
    have hcomma : Follows (.comma :: (memberTokens (m :: ms) ++ rest)) :=
      .cons rfl (separated_memberTokens_append (m :: ms) h)
    have hvalue : Follows (.colon :: (v.tokens ++ .comma :: (memberTokens (m :: ms) ++ rest))) :=
      .cons rfl (separated_tokens_append v hcomma)
    rw [memberTokens, List.cons_append, List.cons_append, List.append_assoc]
    exact (Follows.cons rfl hvalue.separated).separated

end

/-- The tokens of a value are separated. -/
theorem separated_tokens (v : Json) : Separated v.tokens := by
  have h := separated_tokens_append v .nil
  rwa [List.append_nil] at h

end TunnelEvents.Json
