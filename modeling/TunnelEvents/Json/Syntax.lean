/-!
# The syntax of JSON documents

Which texts are JSON documents, as a grammar over characters: an element is a value with white space
around it, and a document is an element.  The grammar names the characters that it allows and says
nothing about what a text means, so a text is a document or not whoever reads it.

There are no other forms: no comma without an entry after it, no entry without a comma before the
next one, no leading zero, no sign but a minus in front of a number, no point without digits on both
sides, no control character in a string, and no escaped surrogate without its other half.

## Main definitions

* `Syntax.Space` — white space.
* `Syntax.Number` — a number.
* `Syntax.Characters` — what may stand between the quotation marks of a string.
* `Syntax.Value`, `Syntax.Element` — a value, and a value with white space around it.
* `Syntax.Document` — a document.
* `Syntax.StrictReader` — a reader that accepts only documents, and nothing after them.
-/

namespace TunnelEvents.Json.Syntax

/-- White space: space, tab, line feed and carriage return. -/
def Space (cs : List Char) : Prop := ∀ c ∈ cs, c = ' ' ∨ c = '\t' ∨ c = '\n' ∨ c = '\r'

/-! ### Numbers -/

/-- A decimal digit. -/
def IsDigit (c : Char) : Prop := '0' ≤ c ∧ c ≤ '9'

/-- One digit or more. -/
def Digits (cs : List Char) : Prop := cs ≠ [] ∧ ∀ c ∈ cs, IsDigit c

/-- The digits before the point. -/
inductive Whole : List Char → Prop
  | zero : Whole ['0']
  | digits {c : Char} {cs : List Char} :
    IsDigit c → c ≠ '0' → (∀ d ∈ cs, IsDigit d) → Whole (c :: cs)

/-- A point and the digits after it, or nothing. -/
inductive Fraction : List Char → Prop
  | absent : Fraction []
  | digits {cs : List Char} : Digits cs → Fraction ('.' :: cs)

/-- A power of ten, or nothing. -/
inductive Exponent : List Char → Prop
  | absent : Exponent []
  | digits {mark : Char} {sign cs : List Char} :
    mark = 'e' ∨ mark = 'E' → sign = [] ∨ sign = ['+'] ∨ sign = ['-'] → Digits cs →
      Exponent (mark :: (sign ++ cs))

/-- A number. -/
inductive Number : List Char → Prop
  | mk {sign whole fraction exponent : List Char} :
    sign = [] ∨ sign = ['-'] → Whole whole → Fraction fraction → Exponent exponent →
      Number (sign ++ whole ++ fraction ++ exponent)

/-! ### Strings -/

/-- A hexadecimal digit of either case. -/
def IsHex (c : Char) : Prop :=
  ('0' ≤ c ∧ c ≤ '9') ∨ ('a' ≤ c ∧ c ≤ 'f') ∨ ('A' ≤ c ∧ c ≤ 'F')

/-- Two hexadecimal digits that begin a unit from D800 to DBFF. -/
def Leading (p q : Char) : Prop := p ∈ ['d', 'D'] ∧ q ∈ ['8', '9', 'a', 'b', 'A', 'B']

/-- Two hexadecimal digits that begin a unit from DC00 to DFFF. -/
def Trailing (p q : Char) : Prop := p ∈ ['d', 'D'] ∧ q ∈ ['c', 'd', 'e', 'f', 'C', 'D', 'E', 'F']

/-- What may stand between the quotation marks of a string. -/
inductive Characters : List Char → Prop
  | nil : Characters []
  /-- A character that is no control character, quotation mark or backslash. -/
  | plain {c : Char} {cs : List Char} :
    ' ' ≤ c → c ≠ '"' → c ≠ '\\' → Characters cs → Characters (c :: cs)
  /-- One of the eight short escapes. -/
  | short {letter : Char} {cs : List Char} :
    letter ∈ ['"', '\\', '/', 'b', 'f', 'n', 'r', 't'] → Characters cs →
      Characters ('\\' :: letter :: cs)
  /-- An escaped unit that is no surrogate. -/
  | unit {p q r s : Char} {cs : List Char} :
    (∀ c ∈ [p, q, r, s], IsHex c) → ¬ Leading p q → ¬ Trailing p q → Characters cs →
      Characters ('\\' :: 'u' :: p :: q :: r :: s :: cs)
  /-- A pair of escaped surrogates. -/
  | pair {p q r s p' q' r' s' : Char} {cs : List Char} :
    (∀ c ∈ [p, q, r, s, p', q', r', s'], IsHex c) → Leading p q → Trailing p' q' →
      Characters cs →
      Characters ('\\' :: 'u' :: p :: q :: r :: s :: '\\' :: 'u' :: p' :: q' :: r' :: s' :: cs)

/-! ### Values -/

mutual

/-- A value. -/
inductive Value : List Char → Prop
  | null : Value ['n', 'u', 'l', 'l']
  | true : Value ['t', 'r', 'u', 'e']
  | false : Value ['f', 'a', 'l', 's', 'e']
  | number {cs : List Char} : Number cs → Value cs
  | string {cs : List Char} : Characters cs → Value ('"' :: (cs ++ ['"']))
  | emptyArray {space : List Char} : Space space → Value ('[' :: (space ++ [']']))
  | array {cs : List Char} : Elements cs → Value ('[' :: (cs ++ [']']))
  | emptyObject {space : List Char} : Space space → Value ('\x7b' :: (space ++ ['\x7d']))
  | object {cs : List Char} : Members cs → Value ('\x7b' :: (cs ++ ['\x7d']))

/-- A value with white space around it. -/
inductive Element : List Char → Prop
  | mk {before value after : List Char} :
    Space before → Value value → Space after → Element (before ++ value ++ after)

/-- One element or more, with commas between them. -/
inductive Elements : List Char → Prop
  | one {cs : List Char} : Element cs → Elements cs
  | more {cs ds : List Char} : Element cs → Elements ds → Elements (cs ++ ',' :: ds)

/-- A name, a colon and an element. -/
inductive Member : List Char → Prop
  | mk {before name after value : List Char} :
    Space before → Characters name → Space after → Element value →
      Member (before ++ '"' :: (name ++ '"' :: (after ++ ':' :: value)))

/-- One member or more, with commas between them. -/
inductive Members : List Char → Prop
  | one {cs : List Char} : Member cs → Members cs
  | more {cs ds : List Char} : Member cs → Members ds → Members (cs ++ ',' :: ds)

end

/-- A document: one element, and nothing else. -/
def Document (cs : List Char) : Prop := Element cs

/-! ### Readers -/

/-- A reader accepts only documents, and after a document only white space, which changes nothing
about what is read. -/
structure StrictReader {α : Type} (read? : String → Option α) : Prop where
  document : ∀ {text : String} {a : α}, read? text = some a → Document text.toList
  append_iff : ∀ {text : String} {a : α}, read? text = some a → ∀ (more : String) (b : α),
    read? (text ++ more) = some b ↔ Space more.toList ∧ b = a

end TunnelEvents.Json.Syntax
