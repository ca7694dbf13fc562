import TunnelEvents.Text.Quoted

/-!
# Reading quoted text

What stands between the quotation marks of a diagnostic can be read back: every escape names one
character or one byte, and every other character stands for itself.  The reader goes from left to
right and looks at each character once.

## Main definitions

* `Quoted.Item` — what an escape or a character stands for.
* `Quoted.items?` — the items of an escaped text.
* `Quoted.text?` — the text that was quoted.
* `Quoted.bytes?` — the byte sequence that was quoted.
-/

namespace TunnelEvents.Quoted

/-- What an escape or a character stands for. -/
inductive Item
  /-- A character. -/
  | char (c : Char)
  /-- A byte that is no character. -/
  | byte (b : UInt8)
  deriving DecidableEq, Repr

/-- What has been read of an unfinished escape. -/
inductive Reading
  /-- No escape has begun. -/
  | idle
  /-- A backslash. -/
  | backslash
  /-- A backslash and `x`. -/
  | byte
  /-- A backslash, `x` and the first digit. -/
  | lastDigit (high : Nat)
  /-- A backslash and `u`. -/
  | codePoint
  /-- A backslash, `u` and an opening brace. -/
  | firstDigit
  /-- A backslash, `u`, an opening brace and digits. -/
  | digits (value : Nat)
  deriving DecidableEq, Repr

namespace Reading

/-- Read the character after a backslash. -/
def afterBackslash (c : Char) : Option (List Item × Reading) :=
  if c = '0' then some ([.char '\x00'], .idle)
  else if c = 't' then some ([.char '\t'], .idle)
  else if c = 'r' then some ([.char '\r'], .idle)
  else if c = 'n' then some ([.char '\n'], .idle)
  else if c = '\\' then some ([.char '\\'], .idle)
  else if c = '"' then some ([.char '"'], .idle)
  else if c = '\'' then some ([.char '\''], .idle)
  else if c = 'x' then some ([], .byte)
  else if c = 'u' then some ([], .codePoint)
  else none

/-- Read a character: the items that it completes, and what is unfinished after it. -/
def step : Reading → Char → Option (List Item × Reading)
  | .idle, c => some (if c = '\\' then ([], .backslash) else ([.char c], .idle))
  | .backslash, c => afterBackslash c
  | .byte, c => (Hexadecimal.digit? c).map fun d => ([], .lastDigit d)
  | .lastDigit high, c =>
    (Hexadecimal.digit? c).map fun d => ([.byte (16 * high + d).toUInt8], .idle)
  | .codePoint, c => if c = '\x7b' then some ([], .firstDigit) else none
  | .firstDigit, c => (Hexadecimal.digit? c).map fun d => ([], .digits d)
  | .digits value, c =>
    if c = '\x7d' then
      if value.isValidChar then some ([.char (Char.ofNat value)], .idle) else none
    else (Hexadecimal.digit? c).map fun d => ([], .digits (16 * value + d))

/-- The items still to come from an escaped text, which must not end within an escape. -/
def items? : Reading → List Char → Option (List Item)
  | reading, [] => if reading = .idle then some [] else none
  | reading, c :: cs => (reading.step c).bind fun r => (items? r.2 cs).map (r.1 ++ ·)

@[simp] theorem items?_nil (reading : Reading) :
    reading.items? [] = if reading = .idle then some [] else none := by
  cases reading <;> rfl

@[simp] theorem items?_cons (reading : Reading) (c : Char) (cs : List Char) :
    reading.items? (c :: cs) = (reading.step c).bind fun r => (r.2.items? cs).map (r.1 ++ ·) := by
  cases reading <;> rfl

end Reading

/-- The items of an escaped text. -/
def items? (escaped : List Char) : Option (List Item) := Reading.idle.items? escaped

/-- The character of an item, if it is one. -/
def Item.char? : Item → Option Char
  | .char c => some c
  | .byte _ => none

/-- The bytes of an item: those that encode a character, or the byte itself. -/
def Item.bytes : Item → Bytes
  | .char c => String.utf8EncodeChar c
  | .byte b => [b]

/-- The text that an escaped text stands for. -/
def text? (escaped : List Char) : Option (List Char) :=
  (items? escaped).bind fun items => items.mapM Item.char?

/-- The byte sequence that an escaped text stands for. -/
def bytes? (escaped : List Char) : Option Bytes :=
  (items? escaped).map fun items => items.flatMap Item.bytes

end TunnelEvents.Quoted
