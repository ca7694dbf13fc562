import TunnelEvents.Text.Quoted.Reading

/-!
# The grammar of quoted text

What stands between the quotation marks of a diagnostic is a sequence of items.  A visible
character stands for itself, unless it is a double quotation mark or a backslash; everything else is
an escape, which begins with a backslash.  So a double quotation mark stands there only as part of
an escape.

Bytes that are no character have an escape of their own.  Where all of the quoted is text, every
item is a character, and only six characters have a short escape.

This states which texts are quoted ones, and of what, without a writer or a reader.

## Main definitions

* `Quoted.IsVisible` — a character that a reader can see, and that does nothing to a display.
* `Quoted.shortEscapes` — the characters that have a letter as their escape.
* `Quoted.ItemSpelling` — how an item may be written.
* `Quoted.Spelling` — how a sequence of items may be written.
* `Quoted.MarksEscaped` — every double quotation mark is part of an escape.
* `Quoted.CharSpelling`, `Quoted.TextSpelling` — how a character and a text may be written where
  all of the quoted is text.
-/

namespace TunnelEvents.Quoted

/-- A character that is no ASCII control character and is in none of the listed ranges. -/
def IsVisible (c : Char) : Prop :=
  0x20 ≤ c.toNat ∧ c.toNat ≠ 0x7F ∧ ∀ r ∈ NonPrinting.ranges, ¬ (r.1 ≤ c.toNat ∧ c.toNat ≤ r.2)

/-- The characters that have a short escape, each with the letter after the backslash. -/
def shortEscapes : List (Char × Char) :=
  [('\x00', '0'), ('\t', 't'), ('\r', 'r'), ('\n', 'n'), ('\'', '\''), ('"', '"'), ('\\', '\\')]

/-- How an item may be written. -/
inductive ItemSpelling : Item → List Char → Prop
  /-- As itself. -/
  | plain {c : Char} : IsVisible c → c ≠ '"' → c ≠ '\\' → ItemSpelling (.char c) [c]
  /-- By a short escape. -/
  | short {c letter : Char} : (c, letter) ∈ shortEscapes → ItemSpelling (.char c) ['\\', letter]
  /-- By the two digits of a byte. -/
  | byte {p q : Char} {m n : Nat} : Hexadecimal.digit? p = some m →
    Hexadecimal.digit? q = some n → ItemSpelling (.byte (16 * m + n).toUInt8) ['\\', 'x', p, q]
  /-- By the digits of its code point. -/
  | codePoint {c : Char} {digits : List Char} : Hexadecimal.natural? digits = some c.toNat →
    ItemSpelling (.char c) (['\\', 'u', '\x7b'] ++ digits ++ ['\x7d'])

/-- How a sequence of items may be written. -/
inductive Spelling : List Item → List Char → Prop
  | nil : Spelling [] []
  | cons {item : Item} {items : List Item} {cs rest : List Char} :
    ItemSpelling item cs → Spelling items rest → Spelling (item :: items) (cs ++ rest)

/-- Every double quotation mark is part of an escape: a backslash stands in front of it, and what
stands in front of the backslash is complete. -/
def MarksEscaped (escaped : List Char) : Prop :=
  ∀ before after, escaped = before ++ '"' :: after →
    ∃ items cs, Spelling items cs ∧ before = cs ++ ['\\']

/-! ### Quoted text -/

/-- The characters that have a short escape in quoted text, each with the letter after the
backslash. -/
def textEscapes : List (Char × Char) :=
  [('\x00', '0'), ('\t', 't'), ('\r', 'r'), ('\n', 'n'), ('"', '"'), ('\\', '\\')]

/-- How a character of quoted text may be written. -/
inductive CharSpelling (c : Char) : List Char → Prop
  /-- As itself. -/
  | plain : IsVisible c → c ≠ '"' → c ≠ '\\' → CharSpelling c [c]
  /-- By a short escape. -/
  | short {letter : Char} : (c, letter) ∈ textEscapes → CharSpelling c ['\\', letter]
  /-- By the digits of its code point. -/
  | codePoint {digits : List Char} : Hexadecimal.natural? digits = some c.toNat →
    CharSpelling c (['\\', 'u', '\x7b'] ++ digits ++ ['\x7d'])

/-- How a text may be written between quotation marks. -/
inductive TextSpelling : List Char → List Char → Prop
  | nil : TextSpelling [] []
  | cons {c : Char} {cs spelled rest : List Char} :
    CharSpelling c spelled → TextSpelling cs rest → TextSpelling (c :: cs) (spelled ++ rest)

/-! ### Putting texts together -/

/-- The spelling of one item. -/
theorem ItemSpelling.spelling {item : Item} {cs : List Char} (h : ItemSpelling item cs) :
    Spelling [item] cs := by
  have hspelling := Spelling.cons h .nil
  rwa [List.append_nil] at hspelling

/-- Spellings may be put together. -/
theorem Spelling.append {items more : List Item} {cs ds : List Char} (h : Spelling items cs)
    (h' : Spelling more ds) : Spelling (items ++ more) (cs ++ ds) := by
  induction h with
  | nil => exact h'
  | cons hitem _ ih =>
    rw [List.append_assoc]
    exact .cons hitem ih

end TunnelEvents.Quoted
