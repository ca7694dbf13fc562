import TunnelEvents.Json.Basic
import TunnelEvents.Json.Syntax

/-!
# The texts of a JSON value

All the ways to write down a given value, as a grammar over characters.  White space may stand
before and after every value and every name.  A character of a string, or of a name, may stand as
itself unless it must be escaped, may have a short escape, and may be named by its code point in
hexadecimal digits of either case: by one unit up to U+FFFF and by a pair of surrogates above.
Numbers are whole, of 64 bits, and written in decimal digits.

The grammar goes from the value to its texts, so it says what a text means without a reader.

## Main definitions

* `Syntax.WritesUnit` — an escaped unit.
* `Syntax.WritesChar`, `Syntax.WritesText` — a character and a text as they may stand in a string.
* `Syntax.WritesValue`, `Syntax.WritesElement` — a value, and a value with white space around it.
* `Syntax.WritesDocument` — a document of a value.
-/

namespace TunnelEvents.Json.Syntax

/-! ### Strings -/

/-- The hexadecimal digits in lower case, by value. -/
def lowerDigits : List Char := "0123456789abcdef".toList

/-- The hexadecimal digits in upper case, by value. -/
def upperDigits : List Char := "0123456789ABCDEF".toList

/-- A hexadecimal digit of a value, in either case. -/
def WritesDigit (n : Nat) (c : Char) : Prop := lowerDigits[n]? = some c ∨ upperDigits[n]? = some c

/-- A unit of 16 bits, escaped by its four digits. -/
inductive WritesUnit (n : Nat) : List Char → Prop
  | mk {p q r s : Char} :
    WritesDigit (n / 0x1000) p → WritesDigit (n / 0x100 % 0x10) q →
      WritesDigit (n / 0x10 % 0x10) r → WritesDigit (n % 0x10) s →
      WritesUnit n ['\\', 'u', p, q, r, s]

/-- The characters that have a short escape, each with the letter after the backslash. -/
def shortEscapes : List (Char × Char) :=
  [('"', '"'), ('\\', '\\'), ('/', '/'), ('\x08', 'b'), ('\x0c', 'f'), ('\n', 'n'), ('\r', 'r'),
    ('\t', 't')]

/-- The ways to write a character in a string. -/
inductive WritesChar (c : Char) : List Char → Prop
  /-- As itself, unless it is a control character, a quotation mark or a backslash. -/
  | plain : ' ' ≤ c → c ≠ '"' → c ≠ '\\' → WritesChar c [c]
  /-- By a short escape. -/
  | short {letter : Char} : (c, letter) ∈ shortEscapes → WritesChar c ['\\', letter]
  /-- By the unit of its code point. -/
  | unit {cs : List Char} : c.toNat < 0x10000 → WritesUnit c.toNat cs → WritesChar c cs
  /-- By two surrogates, which have ten bits each of what the code point is above U+FFFF. -/
  | pair {cs ds : List Char} :
    0x10000 ≤ c.toNat → WritesUnit (0xD800 + (c.toNat - 0x10000) / 0x400) cs →
      WritesUnit (0xDC00 + (c.toNat - 0x10000) % 0x400) ds → WritesChar c (cs ++ ds)

/-- The ways to write a text in a string, character by character. -/
inductive WritesText : List Char → List Char → Prop
  | nil : WritesText [] []
  | cons {c : Char} {text cs ds : List Char} :
    WritesChar c cs → WritesText text ds → WritesText (c :: text) (cs ++ ds)

/-! ### Values -/

mutual

/-- The ways to write a value. -/
inductive WritesValue : Json → List Char → Prop
  | null : WritesValue .null ['n', 'u', 'l', 'l']
  | true : WritesValue (.bool true) ['t', 'r', 'u', 'e']
  | false : WritesValue (.bool false) ['f', 'a', 'l', 's', 'e']
  | natural {n : Nat} : n < UInt64.size → WritesValue (.ofNat n) n.repr.toList
  | string {s : String} {cs : List Char} :
    WritesText s.toList cs → WritesValue (.string s) ('"' :: (cs ++ ['"']))
  | emptyArray {space : List Char} : Space space → WritesValue (.array []) ('[' :: (space ++ [']']))
  | array {items : List Json} {cs : List Char} :
    WritesElements items cs → WritesValue (.array items) ('[' :: (cs ++ [']']))
  | emptyObject {space : List Char} :
    Space space → WritesValue (.object []) ('\x7b' :: (space ++ ['\x7d']))
  | object {members : List (String × Json)} {cs : List Char} :
    WritesMembers members cs → WritesValue (.object members) ('\x7b' :: (cs ++ ['\x7d']))

/-- A value with white space around it. -/
inductive WritesElement : Json → List Char → Prop
  | mk {v : Json} {before value after : List Char} :
    Space before → WritesValue v value → Space after → WritesElement v (before ++ value ++ after)

/-- One item or more, with commas between them. -/
inductive WritesElements : List Json → List Char → Prop
  | one {v : Json} {cs : List Char} : WritesElement v cs → WritesElements [v] cs
  | more {v : Json} {items : List Json} {cs ds : List Char} :
    WritesElement v cs → WritesElements items ds → WritesElements (v :: items) (cs ++ ',' :: ds)

/-- A name, a colon and a value, with white space around the name. -/
inductive WritesMember : String × Json → List Char → Prop
  | mk {name : String} {v : Json} {before cs after value : List Char} :
    Space before → WritesText name.toList cs → Space after → WritesElement v value →
      WritesMember (name, v) (before ++ '"' :: (cs ++ '"' :: (after ++ ':' :: value)))

/-- One member or more, with commas between them. -/
inductive WritesMembers : List (String × Json) → List Char → Prop
  | one {m : String × Json} {cs : List Char} : WritesMember m cs → WritesMembers [m] cs
  | more {m : String × Json} {members : List (String × Json)} {cs ds : List Char} :
    WritesMember m cs → WritesMembers members ds → WritesMembers (m :: members) (cs ++ ',' :: ds)

end

/-- A text is a document of a value. -/
def WritesDocument (v : Json) (text : String) : Prop := WritesElement v text.toList

end TunnelEvents.Json.Syntax
