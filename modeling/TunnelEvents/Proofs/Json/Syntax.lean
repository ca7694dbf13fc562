import TunnelEvents.Json.Syntax
import TunnelEvents.Proofs.Json.Token

/-!
# A text that spells a value is a document

The tokens of a value are taken apart from left to right: what each token is written as is one of
the forms that the grammar has for it, and what stands between two tokens is white space, which the
grammar counts to the elements, names and brackets around it.

## Main results

* `Syntax.number_spelling` — a valid numeral is a number.
* `Syntax.characters_of_textSpelling` — a spelled text is what may stand in a string.
* `Syntax.valueThen_of_spelling` — where the tokens of a value are spelled, a value stands.
* `Syntax.document_of_spells` — **a text that spells a value is a document.**
-/

namespace TunnelEvents.Json.Syntax

/-! ### White space -/

theorem space_iff_blank {cs : List Char} : Space cs ↔ Blank cs := by
  simp only [Space, Blank, isBlank, Bool.or_eq_true, decide_eq_true_iff, or_assoc]

/-! ### Numbers -/

theorem isDigit_iff {c : Char} : IsDigit c ↔ c.isDigit = true := by
  rw [Decimal.isDigit_iff, IsDigit, Char.le_def, Char.le_def, UInt32.le_iff_toNat_le,
    UInt32.le_iff_toNat_le]
  rfl

theorem digits_of_areDigits {cs : List Char} (h : areDigits cs = true) : Digits cs := by
  obtain ⟨hne, hdigits⟩ := areDigits_iff.mp h
  exact ⟨hne, fun c hc => isDigit_iff.mpr (hdigits c hc)⟩

theorem whole_of_isWhole {cs : List Char} (h : isWhole cs = true) : Whole cs := by
  obtain ⟨hdigits, hzero⟩ := Bool.and_eq_true_iff.mp h
  obtain ⟨hne, hall⟩ := digits_of_areDigits hdigits
  rcases Bool.or_eq_true_iff.mp hzero with hzero | hzero
  · rw [beq_iff_eq.mp hzero]
    exact .zero
  · obtain ⟨c, cs, rfl⟩ := List.exists_cons_of_ne_nil hne
    obtain ⟨hc, hcs⟩ := List.forall_mem_cons.mp hall
    refine .digits hc ?_ hcs
    rintro rfl
    exact absurd hzero (by simp)

theorem fraction_spelling {fraction : Option (List Char)}
    (h : ∀ ds ∈ fraction, areDigits ds = true) : Fraction (Numeral.fractionSpelling fraction) := by
  cases fraction with
  | none => exact .absent
  | some ds => exact .digits (digits_of_areDigits (h ds rfl))

theorem exponent_spelling {exponent : Option Json.Exponent}
    (h : ∀ e ∈ exponent, areDigits e.digits = true) :
    Exponent ((exponent.map Numeral.exponentSpelling).getD []) := by
  cases exponent with
  | none => exact .absent
  | some e =>
    obtain ⟨capital, sign, ds⟩ := e
    have hmark : ∀ b : Bool, (if b then 'E' else 'e') = 'e' ∨ (if b then 'E' else 'e') = 'E' := by
      decide
    have hsign : (sign.map Sign.char).toList = [] ∨ (sign.map Sign.char).toList = ['+'] ∨
        (sign.map Sign.char).toList = ['-'] := by
      rcases sign with _ | _ | _ <;> simp [Sign.char]
    exact .digits (hmark capital) hsign (digits_of_areDigits (h _ rfl))

/-- A valid numeral is a number. -/
theorem number_spelling {n : Numeral} (h : n.Valid) : Number n.spelling := by
  obtain ⟨hwhole, hfraction, hexponent⟩ := h
  have hsign : (if n.negative then ['-'] else []) = [] ∨
      (if n.negative then ['-'] else []) = ['-'] := by
    cases n.negative <;> simp
  exact .mk hsign (whole_of_isWhole hwhole) (fraction_spelling hfraction)
    (exponent_spelling hexponent)

/-! ### Strings -/

theorem isHex_iff {c : Char} :
    IsHex c ↔ (0x30 ≤ c.toNat ∧ c.toNat ≤ 0x39) ∨ (0x61 ≤ c.toNat ∧ c.toNat ≤ 0x66) ∨
      (0x41 ≤ c.toNat ∧ c.toNat ≤ 0x46) := by
  simp only [IsHex, Char.le_def, UInt32.le_iff_toNat_le]
  rfl

theorem isHex_of_digit? {c : Char} {n : Nat} (h : Hexadecimal.digit? c = some n) : IsHex c := by
  have hranges := Hexadecimal.toNat_of_digit?_eq_some h
  rw [isHex_iff]
  omega

theorem isHex_of_hexUnit? {p q r s : Char} {n : Nat}
    (h : StringLiteral.hexUnit? p q r s = some n) : ∀ c ∈ [p, q, r, s], IsHex c := by
  obtain ⟨a, b, c, d, hp, hq, hr, hs, -⟩ := StringLiteral.digits_of_hexUnit?_eq_some h
  simp only [List.forall_mem_cons]
  exact ⟨isHex_of_digit? hp, isHex_of_digit? hq, isHex_of_digit? hr, isHex_of_digit? hs, nofun⟩

/-- The first two digits of a unit are its upper half. -/
theorem exists_upper_of_hexUnit? {p q r s : Char} {n : Nat}
    (h : StringLiteral.hexUnit? p q r s = some n) :
    ∃ a b, Hexadecimal.digit? p = some a ∧ Hexadecimal.digit? q = some b ∧
      n / 256 = a * 16 + b := by
  obtain ⟨a, b, c, d, hp, hq, hr, hs, rfl⟩ := StringLiteral.digits_of_hexUnit?_eq_some h
  have hc : c < 16 := by
    have hranges := Hexadecimal.toNat_of_digit?_eq_some hr
    omega
  have hd : d < 16 := by
    have hranges := Hexadecimal.toNat_of_digit?_eq_some hs
    omega
  exact ⟨a, b, hp, hq, by omega⟩

/-- They decide whether the unit is the first of a pair. -/
theorem leading_iff {p q r s : Char} {n : Nat} (h : StringLiteral.hexUnit? p q r s = some n) :
    Leading p q ↔ 0xD800 ≤ n ∧ n < 0xDC00 := by
  obtain ⟨a, b, hp, hq, hn⟩ := exists_upper_of_hexUnit? h
  have ha := Hexadecimal.toNat_of_digit?_eq_some hp
  have hb := Hexadecimal.toNat_of_digit?_eq_some hq
  simp only [Leading, List.mem_cons, List.not_mem_nil, or_false, ← Char.toNat_inj,
    Char.reduceToNat]
  omega

/-- They decide whether it is the second. -/
theorem trailing_iff {p q r s : Char} {n : Nat} (h : StringLiteral.hexUnit? p q r s = some n) :
    Trailing p q ↔ 0xDC00 ≤ n ∧ n < 0xE000 := by
  obtain ⟨a, b, hp, hq, hn⟩ := exists_upper_of_hexUnit? h
  have ha := Hexadecimal.toNat_of_digit?_eq_some hp
  have hb := Hexadecimal.toNat_of_digit?_eq_some hq
  simp only [Trailing, List.mem_cons, List.not_mem_nil, or_false, ← Char.toNat_inj,
    Char.reduceToNat]
  omega

theorem isPlain_iff_le {c : Char} :
    StringLiteral.isPlain c = true ↔ ' ' ≤ c ∧ c ≠ '"' ∧ c ≠ '\\' := by
  rw [StringLiteral.isPlain_iff, Char.le_def, UInt32.le_iff_toNat_le]
  rfl

/-- A spelled character, in front of what may stand in a string. -/
theorem characters_append {c : Char} {spelled cs : List Char} (h : CharSpelling c spelled)
    (hcs : Characters cs) : Characters (spelled ++ cs) := by
  cases h with
  | plain hplain =>
    obtain ⟨hle, hquote, hbackslash⟩ := isPlain_iff_le.mp hplain
    exact .plain hle hquote hbackslash hcs
  | short hletter => exact .short (StringLiteral.mem_of_ofShortEscape?_eq_some hletter) hcs
  | unit hn hrange =>
    refine .unit (isHex_of_hexUnit? hn) ?_ ?_ hcs
    · rw [leading_iff hn]
      omega
    · rw [trailing_iff hn]
      omega
  | pair hn hm hn1 hn2 hm1 hm2 =>
    refine .pair ?_ ((leading_iff hn).mpr ⟨hn1, hn2⟩) ((trailing_iff hm).mpr ⟨hm1, hm2⟩) hcs
    exact List.forall_mem_append.mpr ⟨isHex_of_hexUnit? hn, isHex_of_hexUnit? hm⟩

/-- A spelled text is what may stand in a string. -/
theorem characters_of_textSpelling {content cs : List Char} (h : TextSpelling content cs) :
    Characters cs := by
  induction h with
  | nil => exact .nil
  | cons hc _ ih => exact characters_append hc ih

/-! ### Tokens -/

/-- Punctuation is written as its character, and so the white space before it is found. -/
theorem exists_space_of_punctuation? {c : Char} {t : Token} {ts : List Token} {cs : List Char}
    (ht : punctuation? c = some t) (h : Spelling (t :: ts) cs) :
    ∃ space rest, cs = space ++ c :: rest ∧ Space space ∧ Spelling ts rest := by
  cases h with
  | @cons _ _ blank spelled rest hb hspelled hrest =>
    have hc : spelled = [c] := by
      obtain ⟨rfl, rfl⟩ | ⟨rfl, rfl⟩ | ⟨rfl, rfl⟩ | ⟨rfl, rfl⟩ | ⟨rfl, rfl⟩ | ⟨rfl, rfl⟩ :=
        punctuation?_cases ht <;> cases hspelled <;> rfl
    refine ⟨blank, rest, ?_, space_iff_blank.mpr hb, hrest⟩
    rw [hc, List.append_assoc, List.singleton_append]

theorem exists_name {name : String} {ts : List Token} {cs : List Char}
    (h : Spelling (.string name :: ts) cs) :
    ∃ space characters rest, cs = space ++ '"' :: (characters ++ '"' :: rest) ∧ Space space ∧
      Characters characters ∧ Spelling ts rest := by
  cases h with
  | @cons _ _ blank spelled rest hb hspelled hrest =>
  cases hspelled with
  | @string _ characters htext =>
    refine ⟨blank, characters, rest, ?_, space_iff_blank.mpr hb, characters_of_textSpelling htext,
      hrest⟩
    simp
  | fixed hstring => exact absurd rfl (hstring name)

/-! ### Values -/

/-- A text begins with a value, with white space before it, and then spells tokens. -/
def ValueThen (ts : List Token) (cs : List Char) : Prop :=
  ∃ before value after, cs = before ++ value ++ after ∧ Space before ∧ Value value ∧
    Spelling ts after

/-- A value of one token. -/
theorem valueThen_of_single {t : Token} {ts : List Token} {cs : List Char}
    (hvalue : ∀ spelled, TokenSpelling t spelled → Value spelled) (h : Spelling (t :: ts) cs) :
    ValueThen ts cs := by
  cases h with
  | cons hb hspelled hrest =>
    exact ⟨_, _, _, rfl, space_iff_blank.mpr hb, hvalue _ hspelled, hrest⟩

/-- Up to the punctuation after it, a value is an element. -/
theorem ValueThen.exists_element {c : Char} {t : Token} {ts : List Token} {cs : List Char}
    (h : ValueThen (t :: ts) cs) (ht : punctuation? c = some t) :
    ∃ element after, cs = element ++ c :: after ∧ Element element ∧ Spelling ts after := by
  obtain ⟨before, value, rest, rfl, hbefore, hvalue, h⟩ := h
  obtain ⟨space, after, rfl, hspace, h⟩ := exists_space_of_punctuation? ht h
  exact ⟨before ++ value ++ space, after, by simp, .mk hbefore hvalue hspace, h⟩

/-- With the name before it, it is a member. -/
theorem exists_member {name : String} {c : Char} {t : Token} {us ts : List Token} {cs : List Char}
    (hvalue : ∀ ds, Spelling us ds → ValueThen (t :: ts) ds) (ht : punctuation? c = some t)
    (h : Spelling (.string name :: .colon :: us) cs) :
    ∃ member after, cs = member ++ c :: after ∧ Member member ∧ Spelling ts after := by
  obtain ⟨before, characters, rest, rfl, hbefore, hcharacters, h⟩ := exists_name h
  obtain ⟨space, rest, rfl, hspace, h⟩ := exists_space_of_punctuation? (c := ':') rfl h
  obtain ⟨element, after, rfl, helement, h⟩ := (hvalue _ h).exists_element ht
  exact ⟨_, after, by simp, .mk hbefore hcharacters hspace helement, h⟩

mutual

/-- A text that spells a value and then other tokens begins with a value. -/
theorem valueThen_of_spelling (v : Json) {ts : List Token} {cs : List Char}
    (h : Spelling (v.tokens ++ ts) cs) : ValueThen ts cs := by
  -- what follows is arbitrary, so that the value may stand at any place of another one
  match v with
  | .null =>
    refine valueThen_of_single (fun spelled hspelled => ?_) h
    cases hspelled
    exact .null
  | .bool b =>
    refine valueThen_of_single (fun spelled hspelled => ?_) h
    cases hspelled
    cases b with
    | true => exact .true
    | false => exact .false
  | .number n =>
    refine valueThen_of_single (fun spelled hspelled => ?_) h
    cases hspelled with
    | number hvalid => exact .number (number_spelling hvalid)
    | fixed _ hnumber => exact absurd rfl (hnumber n)
  | .string s =>
    refine valueThen_of_single (fun spelled hspelled => ?_) h
    cases hspelled with
    | string htext => exact .string (characters_of_textSpelling htext)
    | fixed hstring => exact absurd rfl (hstring s)
  | .array [] =>
    obtain ⟨before, rest, rfl, hbefore, h⟩ := exists_space_of_punctuation? (c := '[') rfl h
    obtain ⟨space, after, rfl, hspace, h⟩ := exists_space_of_punctuation? (c := ']') rfl h
    exact ⟨before, _, after, by simp, hbefore, .emptyArray hspace, h⟩
  | .array (v :: vs) =>
    rw [tokens, List.cons_append, List.append_assoc] at h
    obtain ⟨before, rest, rfl, hbefore, h⟩ := exists_space_of_punctuation? (c := '[') rfl h
    obtain ⟨elements, after, rfl, helements, h⟩ := exists_elements (v :: vs) nofun h
    exact ⟨before, _, after, by simp, hbefore, .array helements, h⟩
  | .object [] =>
    obtain ⟨before, rest, rfl, hbefore, h⟩ := exists_space_of_punctuation? (c := '\x7b') rfl h
    obtain ⟨space, after, rfl, hspace, h⟩ := exists_space_of_punctuation? (c := '\x7d') rfl h
    exact ⟨before, _, after, by simp, hbefore, .emptyObject hspace, h⟩
  | .object (m :: ms) =>
    rw [tokens, List.cons_append, List.append_assoc] at h
    obtain ⟨before, rest, rfl, hbefore, h⟩ := exists_space_of_punctuation? (c := '\x7b') rfl h
    obtain ⟨members, after, rfl, hmembers, h⟩ := exists_members (m :: ms) nofun h
    exact ⟨before, _, after, by simp, hbefore, .object hmembers, h⟩

/-- The items of an array are elements. -/
theorem exists_elements (items : List Json) (hne : items ≠ []) {ts : List Token} {cs : List Char}
    (h : Spelling (itemTokens items ++ .closeArray :: ts) cs) :
    ∃ elements after, cs = elements ++ ']' :: after ∧ Elements elements ∧ Spelling ts after := by
  match items with
  | [] => exact absurd rfl hne
  | [v] =>
    have hvalue := valueThen_of_spelling v h
    obtain ⟨element, after, rfl, helement, h⟩ := hvalue.exists_element (c := ']') rfl
    exact ⟨element, after, rfl, .one helement, h⟩
  | v :: w :: vs =>
    rw [itemTokens, List.append_assoc] at h
    have hvalue := valueThen_of_spelling v h
    obtain ⟨element, rest, rfl, helement, h⟩ := hvalue.exists_element (c := ',') rfl
    obtain ⟨elements, after, rfl, helements, h⟩ := exists_elements (w :: vs) nofun h
    exact ⟨_, after, by simp, .more helement helements, h⟩

/-- The members of an object are members. -/
theorem exists_members (members : List (String × Json)) (hne : members ≠ []) {ts : List Token}
    {cs : List Char} (h : Spelling (memberTokens members ++ .closeObject :: ts) cs) :
    ∃ spelled after, cs = spelled ++ '\x7d' :: after ∧ Members spelled ∧ Spelling ts after := by
  match members with
  | [] => exact absurd rfl hne
  | [(name, v)] =>
    obtain ⟨member, after, rfl, hmember, h⟩ :=
      exists_member (c := '\x7d') (fun _ => valueThen_of_spelling v) rfl h
    exact ⟨member, after, rfl, .one hmember, h⟩
  | (name, v) :: m :: ms =>
    rw [memberTokens, List.cons_append, List.cons_append, List.append_assoc] at h
    obtain ⟨member, rest, rfl, hmember, h⟩ :=
      exists_member (c := ',') (fun _ => valueThen_of_spelling v) rfl h
    obtain ⟨members, after, rfl, hmembers, h⟩ := exists_members (m :: ms) nofun h
    exact ⟨_, after, by simp, .more hmember hmembers, h⟩

end

/-- A text that spells a value is a document. -/
theorem document_of_spells {v : Json} {text : String} (h : Spells v text) :
    Document text.toList := by
  have htokens : Spelling (v.tokens ++ []) text.toList := by rwa [List.append_nil]
  obtain ⟨before, value, after, heq, hbefore, hvalue, hafter⟩ := valueThen_of_spelling v htokens
  cases hafter with
  | nil hb =>
    rw [heq]
    exact .mk hbefore hvalue (space_iff_blank.mpr hb)

end TunnelEvents.Json.Syntax
