import TunnelEvents.Proofs.Text.Quoted

/-!
# Quoted text keeps to its grammar

A text is quoted character by character, and only six characters have a short escape; an ASCII
control character without one is named by its code point.  The items of a quoted text are the
characters of the text, so all that the grammar of quoted texts promises holds of it, and two texts
are never quoted alike.

## Main results

* `TextSpelling.spelling` — a spelling of a text is one of its characters as items.
* `TextSpelling.text?_eq` — **a spelling of a text is read as the text.**
* `exists_textSpelling_quoteText` — **a quoted text is a spelling of the text.**
* `quoteText_inj` — different texts are quoted differently.
-/

namespace TunnelEvents

namespace Quoted

/-! ### Reading -/

theorem CharSpelling.itemSpelling {c : Char} {cs : List Char} (h : CharSpelling c cs) :
    ItemSpelling (.char c) cs := by
  cases h with
  | plain hvisible hquote hbackslash => exact .plain hvisible hquote hbackslash
  | short hmem => exact .short (mem_shortEscapes_of_mem_textEscapes hmem)
  | codePoint hdigits => exact .codePoint hdigits

/-- A spelling of a text is one of its characters as items. -/
theorem TextSpelling.spelling {text cs : List Char} (h : TextSpelling text cs) :
    Spelling (text.map .char) cs := by
  induction h with
  | nil => exact .nil
  | cons hc _ ih => exact .cons hc.itemSpelling ih

theorem mapM_char?_map_char (text : List Char) :
    (text.map Item.char).mapM Item.char? = some text := by
  induction text with
  | nil => rfl
  | cons c text ih => simp [Item.char?, ih]

/-- A spelling of a text is read as the text. -/
theorem TextSpelling.text?_eq {text cs : List Char} (h : TextSpelling text cs) :
    text? cs = some text := by
  rw [text?, h.spelling.items?_eq, Option.bind_some, mapM_char?_map_char]

/-! ### Writing -/

/-- However a character is escaped, it is a spelling of the character. -/
theorem charSpelling_escape (c : Char) : CharSpelling c (escape textStyle c) := by
  have hquote : '"' ∈ textStyle.marks := List.mem_singleton_self '"'
  rcases escape_cases textStyle c with ⟨letter, hshort, heq⟩ | ⟨hmark, heq⟩ | ⟨-, heq⟩ | heq |
    ⟨hshort, hmark, hlow, hdelete, hprinting, heq⟩
  · rw [heq]
    exact .short (mem_textEscapes_of_shortEscape? hshort)
  · obtain rfl := List.mem_singleton.mp hmark
    rw [heq]
    exact .short (by decide)
  · -- text names a control character as it names any other
    rw [heq]
    exact .codePoint (Hexadecimal.natural?_toDigits c.toNat)
  · rw [heq]
    exact .codePoint (Hexadecimal.natural?_toDigits c.toNat)
  · obtain ⟨hmarkNe, hbackslash⟩ := ne_of_not_escaped hquote hshort hmark
    rw [heq]
    exact .plain ⟨hlow, hdelete, isNonPrinting_eq_false_iff.mp hprinting⟩ hmarkNe hbackslash

theorem textSpelling_escape (text : List Char) :
    TextSpelling text (text.flatMap (escape textStyle)) := by
  induction text with
  | nil => exact .nil
  | cons c text ih =>
    rw [List.flatMap_cons]
    exact .cons (charSpelling_escape c) ih

/-- A quoted text is a spelling of the text, between quotation marks. -/
theorem exists_textSpelling_quoteText (s : String) :
    ∃ escaped, quoteText s = "\"" ++ String.ofList escaped ++ "\"" ∧
      TextSpelling s.toList escaped :=
  ⟨_, enclose_eq _, textSpelling_escape s.toList⟩

/-- Different texts are quoted differently. -/
theorem quoteText_inj {s t : String} : quoteText s = quoteText t ↔ s = t := by
  refine ⟨fun h => ?_, fun h => by rw [h]⟩
  obtain ⟨escaped, hs, hspelling⟩ := exists_textSpelling_quoteText s
  obtain ⟨escaped', ht, hspelling'⟩ := exists_textSpelling_quoteText t
  -- what stands between the marks is the same, and is read as one text
  rw [hs, ht, String.append_left_inj, String.append_right_inj, String.ofList_inj] at h
  have hread := hspelling.text?_eq
  rw [h, hspelling'.text?_eq] at hread
  exact String.toList_inj.mp (Option.some.inj hread).symm

end Quoted

end TunnelEvents
