import TunnelEvents.Text.Hexadecimal
import TunnelEvents.Text.NonPrinting
import TunnelEvents.Text.Utf8

/-!
# Quoted text and quoted bytes

Diagnostics show foreign text between double quotes, on one line and in visible characters only.
Two forms are in use.  Text escapes its own quotation mark and names control characters by code
point.  Bytes are shown as the text they decode to where they are well formed and as single bytes
where they are not; they escape both quotation marks and name control characters by byte.  Both
forms can be read back without loss.

## Main definitions

* `Quoted.Style` — what the two forms decide differently.
* `Quoted.escape` — one character as it stands inside the quotation marks.
* `quoteText` — a text in quotation marks.
* `quoteBytes` — a byte sequence in quotation marks.
-/

namespace TunnelEvents

namespace Quoted

/-- What a quoted form decides for itself. -/
structure Style where
  /-- The quotation marks that are escaped. -/
  marks : List Char
  /-- How an ASCII control character without a short escape is written. -/
  control : Nat → List Char

/-- `\xNN` with two lower-case digits. -/
def byteEscape (n : Nat) : List Char := ['\\', 'x'] ++ Hexadecimal.byteDigits n

/-- The code point in lower-case hexadecimal digits, without padding, in braces after `\u`. -/
def codePointEscape (n : Nat) : List Char :=
  ['\\', 'u', '\x7b'] ++ Nat.toDigits 16 n ++ ['\x7d']

/-- Text escapes the double quotation mark and names controls by code point. -/
def textStyle : Style := ⟨['"'], codePointEscape⟩

/-- Bytes escape both quotation marks and name controls by byte. -/
def bytesStyle : Style := ⟨['"', '\''], byteEscape⟩

/-- The letter after the backslash for the characters that every form escapes shortly. -/
def shortEscape? (c : Char) : Option Char :=
  if c = '\x00' then some '0'
  else if c = '\t' then some 't'
  else if c = '\r' then some 'r'
  else if c = '\n' then some 'n'
  else if c = '\\' then some '\\'
  else none

/-- One character as it stands inside the quotation marks. -/
def escape (style : Style) (c : Char) : List Char :=
  match shortEscape? c with
  | some letter => ['\\', letter]
  | none =>
    if c ∈ style.marks then ['\\', c]
    else if c.toNat < 0x20 ∨ c.toNat = 0x7F then style.control c.toNat
    else if isNonPrinting c then codePointEscape c.toNat
    else [c]

/-- A segment of a byte sequence as it stands inside the quotation marks. -/
def escapeSegment : Utf8.Segment → List Char
  | .scalar c => escape bytesStyle c
  | .illFormed bytes => bytes.flatMap fun b => byteEscape b.toNat

@[simp] theorem escapeSegment_scalar (c : Char) :
    escapeSegment (.scalar c) = escape bytesStyle c := rfl

@[simp] theorem escapeSegment_illFormed (bytes : Bytes) :
    escapeSegment (.illFormed bytes) = bytes.flatMap fun b => byteEscape b.toNat := rfl

/-- Put an escaped text between double quotation marks. -/
def enclose (escaped : List Char) : String := String.ofList ('"' :: escaped ++ ['"'])

theorem enclose_eq (escaped : List Char) :
    enclose escaped = "\"" ++ String.ofList escaped ++ "\"" := by
  rw [enclose, List.cons_append, ← List.singleton_append, String.ofList_append,
    String.ofList_append, String.append_assoc]

end Quoted

/-- A text between double quotation marks, in visible characters. -/
def quoteText (s : String) : String :=
  Quoted.enclose (s.toList.flatMap (Quoted.escape Quoted.textStyle))

/-- A byte sequence between double quotation marks, in visible characters. -/
def quoteBytes (bytes : Bytes) : String :=
  Quoted.enclose ((Utf8.segments bytes).flatMap Quoted.escapeSegment)

end TunnelEvents
