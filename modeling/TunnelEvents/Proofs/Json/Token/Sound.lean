import TunnelEvents.Proofs.Json.Token

/-!
# What is cut into tokens spells them

The scan keeps the characters of an unfinished token, so at any place the text that was read is the
tokens given out so far and what is unfinished.  Each step keeps this, and so the tokens of a text
are spelled by it: no character is passed over but white space, and what stands in a numeral or a
string is what the grammar allows there.

## Main definitions

* `StringLiteral.Written` — how the pieces of a string are written.
* `Reads` — a text spells tokens whose numbers are within the finite range.
* `Scan.unfinished` — the text of an unfinished token.

## Main results

* `Numeral.of_ofSpelling?_eq_some` — a text that is read as a numeral is that of a valid one.
* `StringLiteral.textSpelling_of_content?` — a text that is read as a string spells it.
* `Scan.reads_of_step` — what a step gives out and leaves unfinished spells what it read.
* `reads_of_tokens?` — **a text spells its tokens.**
-/

namespace TunnelEvents.Json

/-! ### Numerals -/

namespace Numeral

theorem signAndDigits_sound (cs : List Char) :
    ((signAndDigits cs).1.map Sign.char).toList ++ (signAndDigits cs).2 = cs := by
  unfold signAndDigits
  split <;> rfl

theorem exponentAfterMark?_sound {capital : Bool} {cs : List Char} {e : Exponent}
    (h : exponentAfterMark? capital cs = some e) :
    areDigits e.digits = true ∧ exponentSpelling e = (if capital then 'E' else 'e') :: cs := by
  unfold exponentAfterMark? at h
  split at h
  · next hdigits =>
    cases h
    exact ⟨hdigits, congrArg _ (signAndDigits_sound cs)⟩
  · cases h

theorem exponent?_sound {cs : List Char} {exponent : Option Exponent}
    (h : exponent? cs = some exponent) :
    (∀ e ∈ exponent, areDigits e.digits = true) ∧
      (exponent.map exponentSpelling).getD [] = cs := by
  unfold exponent? at h
  split at h
  · cases h
    exact ⟨fun e he => absurd he (Option.not_mem_none e), rfl⟩
  · obtain ⟨e, he, rfl⟩ := Option.map_eq_some_iff.mp h
    obtain ⟨hdigits, hspelling⟩ := exponentAfterMark?_sound he
    exact ⟨fun e' he' => Option.some.inj he' ▸ hdigits, hspelling⟩
  · obtain ⟨e, he, rfl⟩ := Option.map_eq_some_iff.mp h
    obtain ⟨hdigits, hspelling⟩ := exponentAfterMark?_sound he
    exact ⟨fun e' he' => Option.some.inj he' ▸ hdigits, hspelling⟩
  · cases h

/-- A run of digits that is not empty. -/
theorem areDigits_takeWhile {cs : List Char} (h : cs.takeWhile Char.isDigit ≠ []) :
    areDigits (cs.takeWhile Char.isDigit) = true :=
  areDigits_iff.mpr ⟨h, fun _ hc => List.all_eq_true.mp List.all_takeWhile _ hc⟩

theorem fraction?_sound {cs rest : List Char} {fraction : Option (List Char)}
    (h : fraction? cs = some (fraction, rest)) :
    (∀ ds ∈ fraction, areDigits ds = true) ∧ fractionSpelling fraction ++ rest = cs := by
  unfold fraction? at h
  split at h
  · next cs =>
    split at h
    · cases h
    · next hne =>
      cases h
      refine ⟨fun ds hds => Option.some.inj hds ▸ areDigits_takeWhile hne, ?_⟩
      rw [fractionSpelling, List.cons_append, List.takeWhile_append_dropWhile]
  · cases h
    exact ⟨fun ds hds => absurd hds (Option.not_mem_none ds), rfl⟩

theorem magnitude?_sound {negative : Bool} {cs : List Char} {n : Numeral}
    (h : magnitude? negative cs = some n) :
    n.Valid ∧ n.spelling = (if negative then ['-'] else []) ++ cs := by
  unfold magnitude? at h
  split at h
  · next hwhole =>
    simp only [Option.bind_eq_bind, Option.bind_eq_some_iff, Option.pure_def,
      Option.some.injEq] at h
    obtain ⟨⟨fraction, rest⟩, hfraction, exponent, hexponent, rfl⟩ := h
    obtain ⟨hfractionDigits, hfractionSpelling⟩ := fraction?_sound hfraction
    obtain ⟨hexponentDigits, hexponentSpelling⟩ := exponent?_sound hexponent
    refine ⟨⟨hwhole, hfractionDigits, hexponentDigits⟩, ?_⟩
    rw [spelling, hexponentSpelling, List.append_assoc, List.append_assoc, hfractionSpelling,
      List.takeWhile_append_dropWhile]
  · cases h

/-- A text that is read as a numeral is that of a valid one. -/
theorem of_ofSpelling?_eq_some {cs : List Char} {n : Numeral} (h : ofSpelling? cs = some n) :
    n.Valid ∧ n.spelling = cs := by
  unfold ofSpelling? at h
  split at h
  · exact magnitude?_sound h
  · exact magnitude?_sound h

end Numeral

/-! ### Strings -/

namespace StringLiteral

/-- How pieces are written: a character in one of its spellings, a unit by its four digits. -/
inductive Written : List Piece → List Char → Prop
  | nil : Written [] []
  | char {c : Char} {ps : List Piece} {spelled rest : List Char} :
    CharSpelling c spelled → Written ps rest → Written (.char c :: ps) (spelled ++ rest)
  | unit {p q r s : Char} {n : Nat} {ps : List Piece} {rest : List Char} :
    hexUnit? p q r s = some n → Written ps rest →
      Written (.unit n :: ps) (['\\', 'u', p, q, r, s] ++ rest)

theorem written_of_pieces? {cs : List Char} {ps : List Piece} (h : pieces? cs = some ps) :
    Written ps cs := by
  fun_induction pieces? cs generalizing ps with
  | case1 =>
    cases h
    exact .nil
  | case2 p q r s rest ih =>
    simp only [Option.bind_eq_bind, Option.bind_eq_some_iff, Option.pure_def] at h
    obtain ⟨n, hn, ps, hps, h⟩ := h
    cases h
    exact .unit hn (ih hps)
  | case3 letter rest _ ih =>
    simp only [Option.bind_eq_bind, Option.bind_eq_some_iff, Option.pure_def] at h
    obtain ⟨c, hc, ps, hps, h⟩ := h
    cases h
    exact .char (.short hc) (ih hps)
  | case4 c rest _ _ hplain ih =>
    obtain ⟨ps, hps, rfl⟩ := Option.map_eq_some_iff.mp h
    exact .char (.plain hplain) (ih hps)
  | case5 => cases h

/-- Pieces that join are written as the text that they join to: none of a pair stands alone. -/
theorem Written.textSpelling {ps : List Piece} {cs content : List Char} (h : Written ps cs)
    (hjoin : join? ps = some content) : TextSpelling content cs := by
  -- the induction is on how pieces join, since a pair takes two of them at once
  fun_induction join? ps generalizing cs content with
  | case1 =>
    cases hjoin
    cases h
    exact .nil
  | case2 c ps ih =>
    obtain ⟨content, hps, rfl⟩ := Option.map_eq_some_iff.mp hjoin
    cases h with
    | char hc hrest => exact .cons hc (ih hrest hps)
  | case3 n hn m ps hm ih =>
    obtain ⟨content, hps, rfl⟩ := Option.map_eq_some_iff.mp hjoin
    obtain ⟨hn1, hn2⟩ := isLeading_iff.mp hn
    obtain ⟨hm1, hm2⟩ := isTrailing_iff.mp hm
    cases h with
    | unit hunit h =>
    cases h with
    | unit hunit' hrest =>
      rw [← List.append_assoc]
      exact .cons (.pair hunit hunit' hn1 hn2 hm1 hm2) (ih hrest hps)
  | case4 => cases hjoin
  | case5 => cases hjoin
  | case6 => cases hjoin
  | case7 n ps hn hm ih =>
    obtain ⟨content, hps, rfl⟩ := Option.map_eq_some_iff.mp hjoin
    rw [isLeading_iff] at hn
    rw [isTrailing_iff] at hm
    cases h with
    | unit hunit hrest => exact .cons (.unit hunit (by omega)) (ih hrest hps)

/-- A text that is read as a string spells it. -/
theorem textSpelling_of_content? {cs content : List Char} (h : content? cs = some content) :
    TextSpelling content cs := by
  obtain ⟨ps, hpieces, hjoin⟩ := Option.bind_eq_some_iff.mp h
  exact (written_of_pieces? hpieces).textSpelling hjoin

end StringLiteral

/-! ### Whole tokens -/

/-- A text spells tokens, and their numbers are within the finite range. -/
structure Reads (ts : List Token) (cs : List Char) : Prop where
  spelling : Spelling ts cs
  isFinite : ∀ n, .number n ∈ ts → n.isFinite = true

theorem Reads.blank {cs : List Char} (h : Blank cs) : Reads [] cs :=
  ⟨.nil h, fun _ hn => absurd hn List.not_mem_nil⟩

theorem Reads.single {t : Token} {cs : List Char} (h : TokenSpelling t cs)
    (hfinite : ∀ n, t = .number n → n.isFinite = true) : Reads [t] cs :=
  ⟨h.spelling, fun n hn => hfinite n (List.mem_singleton.mp hn).symm⟩

theorem Reads.append {ts us : List Token} {cs ds : List Char} (ht : Reads ts cs)
    (hu : Reads us ds) : Reads (ts ++ us) (cs ++ ds) := by
  refine ⟨ht.spelling.append hu.spelling, fun n hn => ?_⟩
  rcases List.mem_append.mp hn with hn | hn
  · exact ht.isFinite n hn
  · exact hu.isFinite n hn

theorem reads_of_wordToken? {cs : List Char} {t : Token} (h : wordToken? cs = some t) :
    Reads [t] cs := by
  have hword : cs = t.spelling ∧ (t = .null ∨ ∃ b, t = .bool b) := by
    unfold wordToken? at h
    grind [Token.spelling]
  obtain ⟨rfl, rfl | ⟨b, rfl⟩⟩ := hword
  · exact .single (.fixed nofun nofun) nofun
  · exact .single (.fixed nofun nofun) nofun

theorem reads_of_punctuation? {c : Char} {t : Token} (h : punctuation? c = some t) :
    Reads [t] [c] := by
  obtain ⟨rfl, rfl⟩ | ⟨rfl, rfl⟩ | ⟨rfl, rfl⟩ | ⟨rfl, rfl⟩ | ⟨rfl, rfl⟩ | ⟨rfl, rfl⟩ :=
    punctuation?_cases h <;> exact .single (.fixed nofun nofun) nofun

theorem reads_of_numberToken? {cs : List Char} {t : Token} (h : numberToken? cs = some t) :
    Reads [t] cs := by
  obtain ⟨n, hn, h⟩ := Option.bind_eq_some_iff.mp h
  obtain ⟨hvalid, hspelling⟩ := Numeral.of_ofSpelling?_eq_some hn
  split at h
  · next hfinite =>
    cases h
    rw [← hspelling]
    exact .single (.number hvalid) fun m hm => Token.number.inj hm ▸ hfinite
  · cases h

theorem reads_of_stringToken? {cs : List Char} {t : Token} (h : stringToken? cs = some t) :
    Reads [t] ('"' :: cs ++ ['"']) := by
  obtain ⟨content, hcontent, rfl⟩ := Option.map_eq_some_iff.mp h
  refine .single (.string ?_) nofun
  rw [String.toList_ofList]
  exact StringLiteral.textSpelling_of_content? hcontent

/-! ### The scan -/

namespace Scan

/-- The text of an unfinished token. -/
def unfinished : Scan → List Char
  | .idle => []
  | .word read => read.reverse
  | .numeral read => read.reverse
  | .quoted read => '"' :: read.reverse
  | .escaped read => '"' :: read.reverse

theorem reads_of_start {c : Char} {ts ts' : List Token} {scan : Scan} {cs : List Char}
    (h : start c = some (ts, scan)) (hrest : Reads ts' (scan.unfinished ++ cs)) :
    Reads (ts ++ ts') (c :: cs) := by
  unfold start at h
  split at h
  case isTrue hblank =>
    cases h
    have hc : Blank [c] := fun d hd => List.mem_singleton.mp hd ▸ hblank
    exact (Reads.blank hc).append hrest
  case isFalse _ =>
  split at h
  case isTrue hquote =>
    cases h
    rw [hquote]
    exact hrest
  case isFalse _ =>
  split at h
  case isTrue _ =>
    cases h
    exact hrest
  case isFalse _ =>
  split at h
  case isTrue _ =>
    cases h
    exact hrest
  case isFalse _ =>
    obtain ⟨t, ht, h⟩ := Option.map_eq_some_iff.mp h
    cases h
    exact (reads_of_punctuation? ht).append hrest

theorem reads_of_startAfter {t : Token} {c : Char} {ts ts' : List Token} {scan : Scan}
    {spelled cs : List Char} (ht : Reads [t] spelled) (h : startAfter t c = some (ts, scan))
    (hrest : Reads ts' (scan.unfinished ++ cs)) : Reads (ts ++ ts') (spelled ++ c :: cs) := by
  obtain ⟨r, hr, h⟩ := Option.map_eq_some_iff.mp h
  cases h
  exact ht.append (reads_of_start hr hrest)

/-- What a step gives out and leaves unfinished spells what was unfinished and what it read. -/
theorem reads_of_step {scan scan' : Scan} {c : Char} {ts ts' : List Token} {cs : List Char}
    (h : scan.step c = some (ts, scan')) (hrest : Reads ts' (scan'.unfinished ++ cs)) :
    Reads (ts ++ ts') (scan.unfinished ++ c :: cs) := by
  have hread : ∀ read, (c :: read).reverse ++ cs = read.reverse ++ c :: cs := by simp
  -- a character joins what is unfinished, or it ends that and is read where no token has begun
  cases scan with
  | idle => exact reads_of_start h hrest
  | word read =>
    rw [step] at h
    split at h
    · cases h
      rwa [unfinished, hread] at hrest
    · obtain ⟨t, ht, h⟩ := Option.bind_eq_some_iff.mp h
      exact reads_of_startAfter (reads_of_wordToken? ht) h hrest
  | numeral read =>
    rw [step] at h
    split at h
    · cases h
      rwa [unfinished, hread] at hrest
    · obtain ⟨t, ht, h⟩ := Option.bind_eq_some_iff.mp h
      exact reads_of_startAfter (reads_of_numberToken? ht) h hrest
  | quoted read =>
    rw [step] at h
    split at h
    case isTrue hquote =>
      obtain ⟨t, ht, h⟩ := Option.map_eq_some_iff.mp h
      cases h
      have hstring := (reads_of_stringToken? ht).append hrest
      rw [hquote]
      simpa [unfinished] using hstring
    case isFalse _ =>
    split at h
    · cases h
      rwa [unfinished, List.cons_append, hread] at hrest
    · cases h
      rwa [unfinished, List.cons_append, hread] at hrest
  | escaped read =>
    rw [step] at h
    cases h
    rwa [unfinished, List.cons_append, hread] at hrest

theorem reads_of_finish {scan : Scan} {ts : List Token} (h : scan.finish = some ts) :
    Reads ts scan.unfinished := by
  cases scan with
  | idle =>
    cases h
    exact .blank blank_nil
  | word read =>
    obtain ⟨t, ht, rfl⟩ := Option.map_eq_some_iff.mp h
    exact reads_of_wordToken? ht
  | numeral read =>
    obtain ⟨t, ht, rfl⟩ := Option.map_eq_some_iff.mp h
    exact reads_of_numberToken? ht
  | quoted read => cases h
  | escaped read => cases h

/-- What is unfinished and what comes after it spell the tokens still to come. -/
theorem reads_of_tokens? {scan : Scan} {cs : List Char} {ts : List Token}
    (h : scan.tokens? cs = some ts) : Reads ts (scan.unfinished ++ cs) := by
  induction cs generalizing scan ts with
  | nil =>
    rw [tokens?_nil] at h
    rw [List.append_nil]
    exact reads_of_finish h
  | cons c cs ih =>
    rw [tokens?_cons] at h
    obtain ⟨⟨done, scan'⟩, hstep, h⟩ := Option.bind_eq_some_iff.mp h
    obtain ⟨ts, hts, rfl⟩ := Option.map_eq_some_iff.mp h
    exact reads_of_step hstep (ih hts)

end Scan

/-- A text spells its tokens. -/
theorem reads_of_tokens? {cs : List Char} {ts : List Token} (h : tokens? cs = some ts) :
    Reads ts cs := Scan.reads_of_tokens? h

end TunnelEvents.Json
