import TunnelEvents.Proofs.Json.Syntax
import TunnelEvents.Proofs.Json.Token.Sound

/-!
# Every document spells a value

The parts of a document are put together to a value again: its numbers are numerals as they stand,
and every escape in its strings names a character.  So the grammar over characters has just the
texts that spell a value, and a document can be refused only for what its value is.

## Main results

* `Syntax.exists_numeral`, `Syntax.exists_content` — what a number and a string spell.
* `Syntax.exists_of_value` — a value of the grammar spells the tokens of a value.
* `Syntax.document_iff` — **a text is a document exactly if it spells a value.**
-/

namespace TunnelEvents.Json.Syntax

/-! ### Numbers -/

theorem areDigits_of_digits {cs : List Char} (h : Digits cs) : areDigits cs = true :=
  areDigits_iff.mpr ⟨h.1, fun c hc => isDigit_iff.mp (h.2 c hc)⟩

theorem isWhole_of_whole {cs : List Char} (h : Whole cs) : isWhole cs = true := by
  cases h with
  | zero => rfl
  | @digits c cs hc hne hcs =>
    have hdigits : areDigits (c :: cs) = true :=
      areDigits_of_digits ⟨nofun, List.forall_mem_cons.mpr ⟨hc, hcs⟩⟩
    have hhead : ((c :: cs).head? != some '0') = true := by simpa using hne
    rw [isWhole, hdigits, hhead, Bool.or_true, Bool.and_true]

theorem exists_fraction {cs : List Char} (h : Fraction cs) :
    ∃ fraction, (∀ ds ∈ fraction, areDigits ds = true) ∧
      Numeral.fractionSpelling fraction = cs := by
  cases h with
  | absent => exact ⟨none, nofun, rfl⟩
  | @digits cs hcs =>
    exact ⟨some cs, fun ds hds => Option.some.inj hds ▸ areDigits_of_digits hcs, rfl⟩

theorem exists_sign {sign : List Char} (h : sign = [] ∨ sign = ['+'] ∨ sign = ['-']) :
    ∃ s : Option Sign, (s.map Sign.char).toList = sign := by
  rcases h with rfl | rfl | rfl
  · exact ⟨none, rfl⟩
  · exact ⟨some .plus, rfl⟩
  · exact ⟨some .minus, rfl⟩

theorem exists_exponent {cs : List Char} (h : Exponent cs) :
    ∃ exponent : Option Json.Exponent, (∀ e ∈ exponent, areDigits e.digits = true) ∧
      (exponent.map Numeral.exponentSpelling).getD [] = cs := by
  cases h with
  | absent => exact ⟨none, nofun, rfl⟩
  | @digits mark sign cs hmark hsign hcs =>
    obtain ⟨s, rfl⟩ := exists_sign hsign
    have hdigits := areDigits_of_digits hcs
    rcases hmark with rfl | rfl
    · exact ⟨some ⟨false, s, cs⟩, fun e he => Option.some.inj he ▸ hdigits, rfl⟩
    · exact ⟨some ⟨true, s, cs⟩, fun e he => Option.some.inj he ▸ hdigits, rfl⟩

/-- A number is the text of a valid numeral. -/
theorem exists_numeral {cs : List Char} (h : Number cs) :
    ∃ n : Numeral, n.Valid ∧ n.spelling = cs := by
  cases h with
  | @mk sign whole fraction exponent hsign hwhole hfraction hexponent =>
    obtain ⟨f, hf, rfl⟩ := exists_fraction hfraction
    obtain ⟨e, he, rfl⟩ := exists_exponent hexponent
    rcases hsign with rfl | rfl
    · exact ⟨⟨false, whole, f, e⟩, ⟨isWhole_of_whole hwhole, hf, he⟩, rfl⟩
    · exact ⟨⟨true, whole, f, e⟩, ⟨isWhole_of_whole hwhole, hf, he⟩, rfl⟩

/-! ### Strings -/

theorem exists_digit_of_isHex {c : Char} (h : IsHex c) :
    ∃ n, Hexadecimal.digit? c = some n := by
  unfold Hexadecimal.digit?
  split
  case isTrue _ => exact ⟨_, rfl⟩
  case isFalse h0 =>
  split
  case isTrue _ => exact ⟨_, rfl⟩
  case isFalse ha =>
  split
  case isTrue _ => exact ⟨_, rfl⟩
  case isFalse hA => exact absurd h (by simp only [IsHex, h0, ha, hA, or_self, not_false_iff])

/-- Four hexadecimal digits name a unit. -/
theorem exists_unit {p q r s : Char} (h : ∀ c ∈ [p, q, r, s], IsHex c) :
    ∃ n, StringLiteral.hexUnit? p q r s = some n := by
  simp only [List.forall_mem_cons] at h
  obtain ⟨hp, hq, hr, hs, -⟩ := h
  obtain ⟨a, ha⟩ := exists_digit_of_isHex hp
  obtain ⟨b, hb⟩ := exists_digit_of_isHex hq
  obtain ⟨c, hc⟩ := exists_digit_of_isHex hr
  obtain ⟨d, hd⟩ := exists_digit_of_isHex hs
  refine ⟨(a * 16 + b) * 256 + (c * 16 + d), ?_⟩
  simp only [StringLiteral.hexUnit?, ha, hb, hc, hd, Option.bind_eq_bind, Option.bind_some,
    Option.pure_def]

theorem exists_shortEscape {letter : Char}
    (h : letter ∈ ['"', '\\', '/', 'b', 'f', 'n', 'r', 't']) :
    ∃ c, StringLiteral.ofShortEscape? letter = some c := by
  simp only [List.mem_cons, List.not_mem_nil, or_false] at h
  rcases h with rfl | rfl | rfl | rfl | rfl | rfl | rfl | rfl <;> exact ⟨_, rfl⟩

/-- What may stand in a string spells a text. -/
theorem exists_content {cs : List Char} (h : Characters cs) :
    ∃ content, TextSpelling content cs := by
  induction h with
  | nil => exact ⟨[], .nil⟩
  | plain hle hquote hbackslash _ ih =>
    obtain ⟨content, hcontent⟩ := ih
    exact ⟨_, .cons (.plain (isPlain_iff_le.mpr ⟨hle, hquote, hbackslash⟩)) hcontent⟩
  | short hletter _ ih =>
    obtain ⟨content, hcontent⟩ := ih
    obtain ⟨c, hc⟩ := exists_shortEscape hletter
    exact ⟨_, .cons (.short hc) hcontent⟩
  | unit hhex hleading htrailing _ ih =>
    obtain ⟨content, hcontent⟩ := ih
    obtain ⟨n, hn⟩ := exists_unit hhex
    rw [leading_iff hn] at hleading
    rw [trailing_iff hn] at htrailing
    exact ⟨_, .cons (.unit hn (by omega)) hcontent⟩
  | @pair p q r s p' q' r' s' cs hhex hleading htrailing _ ih =>
    obtain ⟨content, hcontent⟩ := ih
    have hboth : ∀ c ∈ [p, q, r, s] ++ [p', q', r', s'], IsHex c := hhex
    obtain ⟨hfirst, hsecond⟩ := List.forall_mem_append.mp hboth
    obtain ⟨n, hn⟩ := exists_unit hfirst
    obtain ⟨m, hm⟩ := exists_unit hsecond
    obtain ⟨hn1, hn2⟩ := (leading_iff hn).mp hleading
    obtain ⟨hm1, hm2⟩ := (trailing_iff hm).mp htrailing
    exact ⟨_, .cons (.pair hn hm hn1 hn2 hm1 hm2) hcontent⟩

/-! ### Values -/

/-- A string spells its token. -/
theorem exists_string {cs : List Char} (h : Characters cs) :
    ∃ s, Spelling [.string s] ('"' :: (cs ++ ['"'])) := by
  obtain ⟨content, hcontent⟩ := exists_content h
  refine ⟨String.ofList content, TokenSpelling.spelling (.string ?_)⟩
  rwa [String.toList_ofList]

/-- Tokens between two brackets. -/
theorem spelling_enclose {c d : Char} {t u : Token} {ts : List Token} {cs : List Char}
    (ht : punctuation? c = some t) (hu : punctuation? d = some u) (h : Spelling ts cs) :
    Spelling (t :: (ts ++ [u])) (c :: (cs ++ [d])) :=
  (reads_of_punctuation? ht).spelling.append (h.append (reads_of_punctuation? hu).spelling)

/-- Tokens with a comma between them. -/
theorem spelling_comma {ts us : List Token} {cs ds : List Char} (ht : Spelling ts cs)
    (hu : Spelling us ds) : Spelling (ts ++ .comma :: us) (cs ++ ',' :: ds) :=
  ht.append ((reads_of_punctuation? (c := ',') rfl).spelling.append hu)

/-- Tokens with white space around them. -/
theorem spelling_around {ts : List Token} {before cs after : List Char} (hbefore : Space before)
    (h : Spelling ts cs) (hafter : Space after) : Spelling ts (before ++ cs ++ after) := by
  have hspelling := (h.blank_append (space_iff_blank.mp hbefore)).append
    (.nil (space_iff_blank.mp hafter))
  rwa [List.append_nil] at hspelling

/-- A name with white space around it, a colon and the tokens of a value. -/
theorem spelling_member {name : String} {ts : List Token} {before cs after ds : List Char}
    (hbefore : Space before) (hname : Spelling [.string name] ('"' :: (cs ++ ['"'])))
    (hafter : Space after) (h : Spelling ts ds) :
    Spelling (.string name :: .colon :: ts)
      (before ++ '"' :: (cs ++ '"' :: (after ++ ':' :: ds))) := by
  have hcolon := (reads_of_punctuation? (c := ':') rfl).spelling.append h
  have hspelling := (spelling_around hbefore hname hafter).append hcolon
  simpa using hspelling

mutual

/-- A value of the grammar spells the tokens of a value. -/
theorem exists_of_value {cs : List Char} (h : Value cs) : ∃ v : Json, Spelling v.tokens cs := by
  match h with
  | .null => exact ⟨.null, TokenSpelling.spelling (.fixed nofun nofun)⟩
  | .true => exact ⟨.bool true, TokenSpelling.spelling (.fixed nofun nofun)⟩
  | .false => exact ⟨.bool false, TokenSpelling.spelling (.fixed nofun nofun)⟩
  | .number h =>
    obtain ⟨n, hvalid, rfl⟩ := exists_numeral h
    exact ⟨.number n, TokenSpelling.spelling (.number hvalid)⟩
  | .string h =>
    obtain ⟨s, hs⟩ := exists_string h
    exact ⟨.string s, hs⟩
  | .emptyArray h =>
    exact ⟨.array [], spelling_enclose (c := '[') (d := ']') rfl rfl (.nil (space_iff_blank.mp h))⟩
  | .array h =>
    obtain ⟨items, -, hitems⟩ := exists_of_elements h
    exact ⟨.array items, spelling_enclose (c := '[') (d := ']') rfl rfl hitems⟩
  | .emptyObject h =>
    exact ⟨.object [],
      spelling_enclose (c := '\x7b') (d := '\x7d') rfl rfl (.nil (space_iff_blank.mp h))⟩
  | .object h =>
    obtain ⟨members, -, hmembers⟩ := exists_of_members h
    exact ⟨.object members, spelling_enclose (c := '\x7b') (d := '\x7d') rfl rfl hmembers⟩

theorem exists_of_element {cs : List Char} (h : Element cs) :
    ∃ v : Json, Spelling v.tokens cs := by
  match h with
  | .mk hbefore h hafter =>
    obtain ⟨v, hv⟩ := exists_of_value h
    exact ⟨v, spelling_around hbefore hv hafter⟩

theorem exists_of_elements {cs : List Char} (h : Elements cs) :
    ∃ items : List Json, items ≠ [] ∧ Spelling (itemTokens items) cs := by
  match h with
  | .one h =>
    obtain ⟨v, hv⟩ := exists_of_element h
    exact ⟨[v], nofun, hv⟩
  | .more h hs =>
    obtain ⟨v, hv⟩ := exists_of_element h
    obtain ⟨items, hne, hitems⟩ := exists_of_elements hs
    refine ⟨v :: items, nofun, ?_⟩
    rw [itemTokens_cons v hne]
    exact spelling_comma hv hitems

theorem exists_of_member {cs : List Char} (h : Member cs) :
    ∃ (name : String) (v : Json), Spelling (.string name :: .colon :: v.tokens) cs := by
  match h with
  | .mk hbefore hname hafter h =>
    obtain ⟨name, hname⟩ := exists_string hname
    obtain ⟨v, hv⟩ := exists_of_element h
    exact ⟨name, v, spelling_member hbefore hname hafter hv⟩

theorem exists_of_members {cs : List Char} (h : Members cs) :
    ∃ members : List (String × Json), members ≠ [] ∧ Spelling (memberTokens members) cs := by
  match h with
  | .one h =>
    obtain ⟨name, v, hv⟩ := exists_of_member h
    exact ⟨[(name, v)], nofun, hv⟩
  | .more h hs =>
    obtain ⟨name, v, hv⟩ := exists_of_member h
    obtain ⟨members, hne, hmembers⟩ := exists_of_members hs
    refine ⟨(name, v) :: members, nofun, ?_⟩
    rw [memberTokens_cons name v hne]
    exact spelling_comma hv hmembers

end

/-- A text is a document exactly if it spells a value. -/
theorem document_iff {text : String} : Document text.toList ↔ ∃ v, Spells v text := by
  constructor
  · exact exists_of_element
  · rintro ⟨v, hv⟩
    exact document_of_spells hv

end TunnelEvents.Json.Syntax
