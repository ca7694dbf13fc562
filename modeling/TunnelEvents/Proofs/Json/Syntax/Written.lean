import TunnelEvents.Json.Syntax.Written
import TunnelEvents.Proofs.Json.Document
import TunnelEvents.Proofs.Json.Syntax.Spelled
import TunnelEvents.Record.Choice
import TunnelEvents.Record.Event

/-!
# Every text of a value is read as that value

However a value is written down, the text spells its tokens: an escape names the character that it
was written for, and white space stands only where it may.  So it does not matter to a record which
text of a value it was read from, and the compact one would have done.

## Main definitions

* `ReadAlike` — two texts are read alike as any record.

## Main results

* `Syntax.WritesChar.charSpelling` — a written character is a spelling of that character.
* `Syntax.spelling_of_writesValue` — a written value spells its tokens.
* `Syntax.WritesDocument.read?_eq` — every document of a value is read as that value.
* `Syntax.writesDocument_render` — the compact text is a document of the value.
* `readAlike_of_writesDocument` — **the documents of a value are read alike.**
-/

namespace TunnelEvents

namespace Json.Syntax

/-! ### Strings -/

/-- A written digit has its value. -/
theorem WritesDigit.digit? {n : Nat} {c : Char} (h : WritesDigit n c) :
    n < 0x10 ∧ Hexadecimal.digit? c = some n := by
  have hlower : ∀ m < 0x10, lowerDigits[m]?.bind Hexadecimal.digit? = some m := by decide
  have hupper : ∀ m < 0x10, upperDigits[m]?.bind Hexadecimal.digit? = some m := by decide
  rcases h with h | h
  · have hlt := (List.getElem?_eq_some_iff.mp h).1
    have hdigit := hlower n hlt
    rw [h] at hdigit
    exact ⟨hlt, hdigit⟩
  · have hlt := (List.getElem?_eq_some_iff.mp h).1
    have hdigit := hupper n hlt
    rw [h] at hdigit
    exact ⟨hlt, hdigit⟩

/-- A written unit has its value. -/
theorem WritesUnit.hexUnit? {n : Nat} {cs : List Char} (h : WritesUnit n cs) :
    ∃ p q r s, cs = ['\\', 'u', p, q, r, s] ∧ StringLiteral.hexUnit? p q r s = some n := by
  cases h with
  | @mk p q r s hp hq hr hs =>
    obtain ⟨hlt, hp⟩ := hp.digit?
    have hsum : (n / 0x1000 * 16 + n / 0x100 % 0x10) * 256
        + (n / 0x10 % 0x10 * 16 + n % 0x10) = n := by omega
    refine ⟨p, q, r, s, rfl, ?_⟩
    simp only [StringLiteral.hexUnit?, hp, hq.digit?.2, hr.digit?.2, hs.digit?.2,
      Option.bind_eq_bind, Option.bind_some, Option.pure_def, hsum]

theorem mem_shortEscapes_iff {c letter : Char} :
    (c, letter) ∈ shortEscapes ↔ StringLiteral.ofShortEscape? letter = some c := by
  constructor
  · intro h
    have htable : ∀ e ∈ shortEscapes, StringLiteral.ofShortEscape? e.2 = some e.1 := by decide
    exact htable (c, letter) h
  · intro h
    have hletter := StringLiteral.mem_of_ofShortEscape?_eq_some h
    simp only [List.mem_cons, List.not_mem_nil, or_false] at hletter
    rcases hletter with rfl | rfl | rfl | rfl | rfl | rfl | rfl | rfl <;>
      rw [← Option.some.inj h] <;> decide

/-- No character is a surrogate. -/
theorem toNat_not_surrogate (c : Char) :
    c.toNat < 0xD800 ∨ 0xE000 ≤ c.toNat ∧ c.toNat < 0x110000 := by
  have hvalid : c.toNat < 0xD800 ∨ 0xDFFF < c.toNat ∧ c.toNat < 0x110000 := c.valid
  omega

/-- A written character is a spelling of that character. -/
theorem WritesChar.charSpelling {c : Char} {cs : List Char} (h : WritesChar c cs) :
    CharSpelling c cs := by
  have hrange := toNat_not_surrogate c
  cases h with
  | plain hle hquote hbackslash =>
    exact .plain (isPlain_iff_le.mpr ⟨hle, hquote, hbackslash⟩)
  | short hletter => exact .short (mem_shortEscapes_iff.mp hletter)
  | unit hlt hunit =>
    obtain ⟨p, q, r, s, rfl, hn⟩ := hunit.hexUnit?
    have hspelling := CharSpelling.unit hn (by omega)
    rwa [Char.ofNat_toNat] at hspelling
  | pair hle hleading htrailing =>
    obtain ⟨p, q, r, s, rfl, hn⟩ := hleading.hexUnit?
    obtain ⟨p', q', r', s', rfl, hm⟩ := htrailing.hexUnit?
    have hspelling := CharSpelling.pair hn hm (by omega) (by omega) (by omega) (by omega)
    -- the two halves are put together to the code point again
    have hpair : 0x10000 + (0xD800 + (c.toNat - 0x10000) / 0x400 - 0xD800) * 0x400
        + (0xDC00 + (c.toNat - 0x10000) % 0x400 - 0xDC00) = c.toNat := by omega
    rw [StringLiteral.pair, hpair, Char.ofNat_toNat] at hspelling
    exact hspelling

/-- A written text is a spelling of that text. -/
theorem WritesText.textSpelling {text cs : List Char} (h : WritesText text cs) :
    TextSpelling text cs := by
  induction h with
  | nil => exact .nil
  | cons hc _ ih => exact .cons hc.charSpelling ih

/-- A written string spells its token. -/
theorem WritesText.spelling {s : String} {cs : List Char} (h : WritesText s.toList cs) :
    Spelling [.string s] ('"' :: (cs ++ ['"'])) :=
  TokenSpelling.spelling (.string h.textSpelling)

/-! ### Values -/

/-- A natural number is written as its numeral. -/
theorem spelling_ofNat (n : Nat) : (Numeral.ofNat n).spelling = n.repr.toList := by
  rw [Nat.repr, String.toList_ofList]
  simp [Numeral.spelling, Numeral.ofNat, Numeral.fractionSpelling]

theorem tokenSpelling_ofNat (n : Nat) : TokenSpelling (.number (.ofNat n)) n.repr.toList := by
  rw [← spelling_ofNat]
  exact .number (Numeral.valid_ofNat n)

mutual

/-- A written value spells its tokens, and its numbers are plain. -/
theorem spelling_of_writesValue {v : Json} {cs : List Char} (h : WritesValue v cs) :
    Spelling v.tokens cs ∧ v.Plain := by
  match h with
  | .null => exact ⟨TokenSpelling.spelling (.fixed nofun nofun), by simp [Plain, tokens]⟩
  | .true => exact ⟨TokenSpelling.spelling (.fixed nofun nofun), plain_bool true⟩
  | .false => exact ⟨TokenSpelling.spelling (.fixed nofun nofun), plain_bool false⟩
  | .natural hn => exact ⟨TokenSpelling.spelling (tokenSpelling_ofNat _), plain_ofNat hn⟩
  | .string h => exact ⟨h.spelling, plain_string _⟩
  | .emptyArray h =>
    have hspace := Spelling.nil (space_iff_blank.mp h)
    exact ⟨spelling_enclose (c := '[') (d := ']') rfl rfl hspace, plain_array nofun⟩
  | .array h =>
    obtain ⟨-, hitems, hplain⟩ := spelling_of_writesElements h
    exact ⟨spelling_enclose (c := '[') (d := ']') rfl rfl hitems, plain_array hplain⟩
  | .emptyObject h =>
    have hspace := Spelling.nil (space_iff_blank.mp h)
    exact ⟨spelling_enclose (c := '\x7b') (d := '\x7d') rfl rfl hspace, plain_object nofun⟩
  | .object h =>
    obtain ⟨-, hmembers, hplain⟩ := spelling_of_writesMembers h
    exact ⟨spelling_enclose (c := '\x7b') (d := '\x7d') rfl rfl hmembers, plain_object hplain⟩

theorem spelling_of_writesElement {v : Json} {cs : List Char} (h : WritesElement v cs) :
    Spelling v.tokens cs ∧ v.Plain := by
  match h with
  | .mk hbefore h hafter =>
    obtain ⟨hspelling, hplain⟩ := spelling_of_writesValue h
    exact ⟨spelling_around hbefore hspelling hafter, hplain⟩

theorem spelling_of_writesElements {items : List Json} {cs : List Char}
    (h : WritesElements items cs) :
    items ≠ [] ∧ Spelling (itemTokens items) cs ∧ ∀ v ∈ items, v.Plain := by
  match h with
  | .one h =>
    obtain ⟨hspelling, hplain⟩ := spelling_of_writesElement h
    exact ⟨nofun, hspelling, List.forall_mem_singleton.mpr hplain⟩
  | .more h hs =>
    obtain ⟨hspelling, hplain⟩ := spelling_of_writesElement h
    obtain ⟨hne, hitems, hplains⟩ := spelling_of_writesElements hs
    refine ⟨nofun, ?_, List.forall_mem_cons.mpr ⟨hplain, hplains⟩⟩
    rw [itemTokens_cons _ hne]
    exact spelling_comma hspelling hitems

theorem spelling_of_writesMember {m : String × Json} {cs : List Char} (h : WritesMember m cs) :
    Spelling (.string m.1 :: .colon :: m.2.tokens) cs ∧ m.2.Plain := by
  match h with
  | .mk hbefore hname hafter h =>
    obtain ⟨hspelling, hplain⟩ := spelling_of_writesElement h
    exact ⟨spelling_member hbefore hname.spelling hafter hspelling, hplain⟩

theorem spelling_of_writesMembers {members : List (String × Json)} {cs : List Char}
    (h : WritesMembers members cs) :
    members ≠ [] ∧ Spelling (memberTokens members) cs ∧ ∀ m ∈ members, m.2.Plain := by
  match h with
  | .one h =>
    obtain ⟨hspelling, hplain⟩ := spelling_of_writesMember h
    exact ⟨nofun, hspelling, List.forall_mem_singleton.mpr hplain⟩
  | .more h hs =>
    obtain ⟨hspelling, hplain⟩ := spelling_of_writesMember h
    obtain ⟨hne, hmembers, hplains⟩ := spelling_of_writesMembers hs
    refine ⟨nofun, ?_, List.forall_mem_cons.mpr ⟨hplain, hplains⟩⟩
    rw [memberTokens_cons _ _ hne]
    exact spelling_comma hspelling hmembers

end

/-- Only values with plain numbers have documents. -/
theorem WritesDocument.plain {v : Json} {text : String} (h : WritesDocument v text) : v.Plain :=
  (spelling_of_writesElement h).2

/-- Every document of a value is read as that value. -/
theorem WritesDocument.read?_eq {v : Json} {text : String} (h : WritesDocument v text)
    (hdepth : v.depth ≤ Json.Document.maxDepth) : Json.read? text = some v :=
  read?_of_spells hdepth h.plain.isFinite (spelling_of_writesElement h).1

/-! ### The compact text -/

theorem writesDigit_digitChar {n : Nat} (h : n < 0x10) : WritesDigit n (Nat.digitChar n) := by
  have htable : ∀ m < 0x10, lowerDigits[m]? = some (Nat.digitChar m) := by decide
  exact .inl (htable n h)

/-- What is written for a character is one of the ways to write it. -/
theorem writesChar_escape (c : Char) : WritesChar c (StringLiteral.escape c) := by
  obtain ⟨letter, hletter, heq⟩ | ⟨hlow, heq⟩ | ⟨hplain, heq⟩ := StringLiteral.escape_cases c
  · rw [heq]
    exact .short (mem_shortEscapes_iff.mpr hletter)
  · rw [heq]
    refine .unit (by omega) (.mk ?_ ?_ ?_ ?_)
    · rw [show c.toNat / 0x1000 = 0 by omega]
      exact .inl rfl
    · rw [show c.toNat / 0x100 % 0x10 = 0 by omega]
      exact .inl rfl
    · rw [show c.toNat / 0x10 % 0x10 = c.toNat / 16 by omega]
      exact writesDigit_digitChar (by omega)
    · exact writesDigit_digitChar (by omega)
  · rw [heq]
    obtain ⟨hle, hquote, hbackslash⟩ := isPlain_iff_le.mp hplain
    exact .plain hle hquote hbackslash

theorem writesText_escape (text : List Char) :
    WritesText text (text.flatMap StringLiteral.escape) := by
  induction text with
  | nil => exact .nil
  | cons c text ih =>
    rw [List.flatMap_cons]
    exact .cons (writesChar_escape c) ih

theorem WritesValue.element {v : Json} {cs : List Char} (h : WritesValue v cs) :
    WritesElement v cs := by
  have helement := WritesElement.mk (List.forall_mem_nil _) h (List.forall_mem_nil _)
  rwa [List.nil_append, List.append_nil] at helement

/-- A name with nothing around it, a colon and a value. -/
theorem writesMember_tokens (name : String) {v : Json}
    (h : WritesElement v (v.tokens.flatMap Token.spelling)) :
    WritesMember (name, v) ((.string name :: .colon :: v.tokens).flatMap Token.spelling) := by
  have hmember := WritesMember.mk (List.forall_mem_nil _) (writesText_escape name.toList)
    (List.forall_mem_nil _) h
  simpa [Token.spelling] using hmember

mutual

/-- The shortest texts of the tokens of a value make up one of its texts, if its numbers are
plain. -/
theorem writesValue_tokens (v : Json) (h : v.Plain) :
    WritesValue v (v.tokens.flatMap Token.spelling) := by
  match v with
  | .null => exact .null
  | .bool true => exact .true
  | .bool false => exact .false
  | .number n =>
    obtain ⟨k, hk, rfl⟩ := h n (List.mem_singleton.mpr rfl)
    rw [tokens, List.flatMap_singleton, Token.spelling, spelling_ofNat]
    exact .natural hk
  | .string s =>
    rw [tokens, List.flatMap_singleton, Token.spelling]
    exact .string (writesText_escape s.toList)
  | .array items =>
    by_cases hne : items = []
    · rw [hne]
      exact .emptyArray (List.forall_mem_nil _)
    · rw [tokens, List.flatMap_cons, List.flatMap_append, List.flatMap_singleton]
      refine .array (writesElements_tokens items hne fun n hn => h n ?_)
      exact List.mem_cons_of_mem _ (List.mem_append_left _ hn)
  | .object members =>
    by_cases hne : members = []
    · rw [hne]
      exact .emptyObject (List.forall_mem_nil _)
    · rw [tokens, List.flatMap_cons, List.flatMap_append, List.flatMap_singleton]
      refine .object (writesMembers_tokens members hne fun n hn => h n ?_)
      exact List.mem_cons_of_mem _ (List.mem_append_left _ hn)

theorem writesElements_tokens (items : List Json) (hne : items ≠ [])
    (h : ∀ n, .number n ∈ itemTokens items → ∃ k < UInt64.size, n = .ofNat k) :
    WritesElements items ((itemTokens items).flatMap Token.spelling) := by
  match items with
  | [] => exact absurd rfl hne
  | [v] => exact .one (writesValue_tokens v h).element
  | v :: w :: vs =>
    rw [itemTokens] at h ⊢
    rw [List.flatMap_append, List.flatMap_cons]
    have hv := writesValue_tokens v fun n hn => h n (List.mem_append_left _ hn)
    have hvs := writesElements_tokens (w :: vs) nofun fun n hn =>
      h n (List.mem_append_right _ (List.mem_cons_of_mem _ hn))
    exact .more hv.element hvs

theorem writesMembers_tokens (members : List (String × Json)) (hne : members ≠ [])
    (h : ∀ n, .number n ∈ memberTokens members → ∃ k < UInt64.size, n = .ofNat k) :
    WritesMembers members ((memberTokens members).flatMap Token.spelling) := by
  match members with
  | [] => exact absurd rfl hne
  | [(name, v)] =>
    rw [memberTokens] at h ⊢
    have hv := writesValue_tokens v fun n hn =>
      h n (List.mem_cons_of_mem _ (List.mem_cons_of_mem _ hn))
    exact .one (writesMember_tokens name hv.element)
  | (name, v) :: m :: ms =>
    rw [memberTokens, ← List.cons_append, ← List.cons_append] at h ⊢
    rw [List.flatMap_append, List.flatMap_cons]
    have hv := writesValue_tokens v fun n hn =>
      h n (List.mem_append_left _ (List.mem_cons_of_mem _ (List.mem_cons_of_mem _ hn)))
    have hms := writesMembers_tokens (m :: ms) nofun fun n hn =>
      h n (List.mem_append_right _ (List.mem_cons_of_mem _ hn))
    exact .more (writesMember_tokens name hv.element) hms

end

/-- The compact text of a value with plain numbers is a document of it. -/
theorem writesDocument_render {v : Json} (h : v.Plain) : WritesDocument v v.render := by
  rw [WritesDocument, toList_render]
  exact (writesValue_tokens v h).element

end Json.Syntax

/-! ### Records -/

/-- Two texts are read as the same event, kind or state, or both are refused as one. -/
structure ReadAlike (a b : String) : Prop where
  event : Event.read? a = Event.read? b
  kind : EventKind.read? a = EventKind.read? b
  state : ConnectionState.read? a = ConnectionState.read? b

theorem readAlike_of_read?_eq {a b : String} (h : Json.read? a = Json.read? b) :
    ReadAlike a b where
  event := by rw [Event.read?, Event.read?, h]
  kind := by rw [EventKind.read?, EventKind.read?, h]
  state := by rw [ConnectionState.read?, ConnectionState.read?, h]

open Json.Syntax

/-- Every document of a value is read as that value, and the compact text is one of them.  So
records are read from a document as from the compact text, and as from any other document of the
value. -/
theorem readAlike_of_writesDocument {v : Json} {text : String} (h : WritesDocument v text)
    (hdepth : v.depth ≤ 100) :
    Json.read? text = some v ∧ WritesDocument v v.render ∧ ReadAlike text v.render ∧
      ∀ text', WritesDocument v text' → ReadAlike text text' := by
  have hmax : v.depth ≤ Json.Document.maxDepth := Nat.le_trans hdepth (by decide)
  have halike : ∀ text', WritesDocument v text' → ReadAlike text text' := by
    intro text' h'
    exact readAlike_of_read?_eq ((h.read?_eq hmax).trans (h'.read?_eq hmax).symm)
  have hrender := writesDocument_render h.plain
  exact ⟨h.read?_eq hmax, hrender, halike v.render hrender, halike⟩

/-- A name may have an escaped letter, and a state an escaped slash and a pair of surrogates with
digits of either case. -/
theorem readAlike_of_writesDocument_other :
    WritesDocument (.object [("other", .string "/😀")])
        " \x7b\"othe\\u0072\" :\t\"\\/\\uD83d\\uDE00\"\x7d\n" ∧
      (Json.object [("other", .string "/😀")]).depth ≤ 100 ∧
      ConnectionState.read? " \x7b\"othe\\u0072\" :\t\"\\/\\uD83d\\uDE00\"\x7d\n"
        = some (.other "/😀") := by
  have hspace : ∀ c, c = ' ' ∨ c = '\t' ∨ c = '\n' ∨ c = '\r' → Space [c] := fun c hc =>
    List.forall_mem_singleton.mpr hc
  have hempty : Space [] := List.forall_mem_nil _
  have hplain : ∀ c, ' ' ≤ c ∧ c ≠ '"' ∧ c ≠ '\\' → WritesChar c [c] := fun c hc =>
    .plain hc.1 hc.2.1 hc.2.2
  have hletter : WritesChar 'r' ['\\', 'u', '0', '0', '7', '2'] :=
    .unit (by decide) (.mk (.inl rfl) (.inl rfl) (.inl rfl) (.inl rfl))
  have hname : WritesText "other".toList _ :=
    .cons (hplain 'o' (by decide)) (.cons (hplain 't' (by decide)) (.cons (hplain 'h' (by decide))
      (.cons (hplain 'e' (by decide)) (.cons hletter .nil))))
  have hleading : WritesUnit 0xD83D ['\\', 'u', 'D', '8', '3', 'd'] :=
    .mk (.inr rfl) (.inl rfl) (.inl rfl) (.inl rfl)
  have htrailing : WritesUnit 0xDE00 ['\\', 'u', 'D', 'E', '0', '0'] :=
    .mk (.inr rfl) (.inr rfl) (.inl rfl) (.inl rfl)
  have hslash : WritesChar '/' ['\\', '/'] := .short (by decide)
  have hface : WritesChar '😀' _ := .pair (by decide) hleading htrailing
  have hstate : WritesText "/😀".toList _ := .cons hslash (.cons hface .nil)
  have hvalue := WritesElement.mk (hspace '\t' (by decide)) (.string hstate) hempty
  have hobject := WritesValue.object (.one (.mk hempty hname (hspace ' ' (by decide)) hvalue))
  have hwrites : WritesDocument (.object [("other", .string "/😀")])
      " \x7b\"othe\\u0072\" :\t\"\\/\\uD83d\\uDE00\"\x7d\n" :=
    WritesElement.mk (hspace ' ' (by decide)) hobject (hspace '\n' (by decide))
  have hread := (readAlike_of_writesDocument hwrites (by decide)).1
  refine ⟨hwrites, by decide, ?_⟩
  rw [ConnectionState.read?, hread]
  rfl

end TunnelEvents
