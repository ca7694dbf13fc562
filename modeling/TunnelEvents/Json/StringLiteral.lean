import TunnelEvents.Text.Hexadecimal

/-!
# JSON string literals

Between the quotation marks of a string stand characters, short escapes such as `\n`, and escapes
of four hexadecimal digits that name 16-bit units.  A unit from D800 to DBFF must be followed by an
escaped unit from DC00 to DFFF, and the two make one character; no other unit of that range is
allowed.  Reading is in two steps for that reason: escapes are resolved one by one, and then units
are joined.

Writing escapes what has to be escaped, in the shortest way, and nothing else.

## Main definitions

* `StringLiteral.escape` — one character as it is written.
* `StringLiteral.Piece` — a character or an escaped unit.
* `StringLiteral.pieces?` — the pieces of a string.
* `StringLiteral.join?` — the characters that pieces make up.
* `StringLiteral.content?` — the characters of a string.
-/

namespace TunnelEvents.Json.StringLiteral

/-! ### Writing -/

/-- One character as it is written: quotation mark, backslash and the characters below U+0020 are
escaped. -/
def escape (c : Char) : List Char :=
  if c = '"' then ['\\', '"']
  else if c = '\\' then ['\\', '\\']
  else if c = '\x08' then ['\\', 'b']
  else if c = '\x0c' then ['\\', 'f']
  else if c = '\n' then ['\\', 'n']
  else if c = '\r' then ['\\', 'r']
  else if c = '\t' then ['\\', 't']
  else if c.toNat < 0x20 then
    ['\\', 'u', '0', '0'] ++ Hexadecimal.byteDigits c.toNat
  else [c]

/-! ### Escapes -/

/-- What an escape stands for. -/
inductive Piece
  /-- A character. -/
  | char (c : Char)
  /-- A 16-bit unit. -/
  | unit (n : Nat)
  deriving DecidableEq, Repr

/-- The character that a letter after a backslash stands for. -/
def ofShortEscape? (letter : Char) : Option Char :=
  if letter = '"' then some '"'
  else if letter = '\\' then some '\\'
  else if letter = '/' then some '/'
  else if letter = 'b' then some '\x08'
  else if letter = 'f' then some '\x0c'
  else if letter = 'n' then some '\n'
  else if letter = 'r' then some '\r'
  else if letter = 't' then some '\t'
  else none

/-- The unit of four hexadecimal digits. -/
def hexUnit? (a b c d : Char) : Option Nat := do
  let high := (← Hexadecimal.digit? a) * 16 + (← Hexadecimal.digit? b)
  let low := (← Hexadecimal.digit? c) * 16 + (← Hexadecimal.digit? d)
  return high * 256 + low

/-- Whether a character may stand in a string as itself. -/
def isPlain (c : Char) : Bool := 0x20 ≤ c.toNat && c ≠ '"' && c ≠ '\\'

/-- The pieces of the text between the quotation marks. -/
def pieces? : List Char → Option (List Piece)
  | [] => some []
  | '\\' :: 'u' :: a :: b :: c :: d :: cs => do
    let n ← hexUnit? a b c d
    return .unit n :: (← pieces? cs)
  | '\\' :: letter :: cs => do
    let c ← ofShortEscape? letter
    return .char c :: (← pieces? cs)
  | c :: cs => if isPlain c then (pieces? cs).map (.char c :: ·) else none

/-! ### Units -/

/-- Whether a unit is the first of a pair. -/
def isLeading (n : Nat) : Bool := 0xD800 ≤ n && n < 0xDC00

/-- Whether a unit is the second of a pair. -/
def isTrailing (n : Nat) : Bool := 0xDC00 ≤ n && n < 0xE000

/-- The character of a pair of units. -/
def pair (leading trailing : Nat) : Char :=
  Char.ofNat (0x10000 + (leading - 0xD800) * 0x400 + (trailing - 0xDC00))

/-- The characters that pieces make up, unless a unit of a pair stands alone. -/
def join? : List Piece → Option (List Char)
  | [] => some []
  | .char c :: ps => (join? ps).map (c :: ·)
  | .unit n :: ps =>
    if isLeading n then
      match ps with
      | .unit m :: rest => if isTrailing m then (join? rest).map (pair n m :: ·) else none
      | _ => none
    else if isTrailing n then none
    else (join? ps).map (Char.ofNat n :: ·)

/-- The characters of a string, given the text between its quotation marks. -/
def content? (cs : List Char) : Option (List Char) := (pieces? cs).bind join?

end TunnelEvents.Json.StringLiteral
