import TunnelEvents.Json.Numeral.Finite
import TunnelEvents.Json.StringLiteral

/-!
# JSON tokens

A text is first cut into tokens: punctuation, words, numerals and strings, with white space between
them.  A word, a numeral or a string ends where its text ends, so which token comes next is known
from its first character, and the scan reads each character once.  It keeps the characters of an
unfinished token in reverse.

Tokens are all that the rest of the reader sees.  How strings are escaped and where white space
stands is settled here.

## Main definitions

* `Token` — a token.
* `Token.spelling` — the shortest text of a token.
* `Scan` — what has been read of an unfinished token.
* `tokens?` — the tokens of a text.
-/

namespace TunnelEvents.Json

/-- A token of a JSON text. -/
inductive Token
  | openArray
  | closeArray
  | openObject
  | closeObject
  | comma
  | colon
  | null
  | bool (b : Bool)
  | number (n : Numeral)
  | string (s : String)
  deriving DecidableEq, Repr

/-- The shortest text of a token. -/
def Token.spelling : Token → List Char
  | .openArray => ['[']
  | .closeArray => [']']
  | .openObject => ['\x7b']
  | .closeObject => ['\x7d']
  | .comma => [',']
  | .colon => [':']
  | .null => ['n', 'u', 'l', 'l']
  | .bool true => ['t', 'r', 'u', 'e']
  | .bool false => ['f', 'a', 'l', 's', 'e']
  | .number n => n.spelling
  | .string s => '"' :: s.toList.flatMap StringLiteral.escape ++ ['"']

/-! ### Character classes -/

/-- White space: space, tab, line feed and carriage return. -/
def isBlank (c : Char) : Bool := c = ' ' || c = '\t' || c = '\n' || c = '\r'

/-- The token of a punctuation character. -/
def punctuation? (c : Char) : Option Token :=
  if c = '[' then some .openArray
  else if c = ']' then some .closeArray
  else if c = '\x7b' then some .openObject
  else if c = '\x7d' then some .closeObject
  else if c = ',' then some .comma
  else if c = ':' then some .colon
  else none

/-- Whether a character may stand in a word. -/
def isWordChar (c : Char) : Bool := 'a' ≤ c && c ≤ 'z'

/-- Whether a numeral may begin with a character. -/
def startsNumeral (c : Char) : Bool := c.isDigit || c = '-'

/-- Whether a character may stand in a numeral. -/
def isNumeralChar (c : Char) : Bool :=
  c.isDigit || c = '-' || c = '+' || c = '.' || c = 'e' || c = 'E'

/-! ### Whole tokens -/

/-- The token of a word. -/
def wordToken? (cs : List Char) : Option Token :=
  if cs = ['n', 'u', 'l', 'l'] then some .null
  else if cs = ['t', 'r', 'u', 'e'] then some (.bool true)
  else if cs = ['f', 'a', 'l', 's', 'e'] then some (.bool false)
  else none

/-- The token of a numeral, which has to be within the finite range. -/
def numberToken? (cs : List Char) : Option Token :=
  (Numeral.ofSpelling? cs).bind fun n => if n.isFinite then some (.number n) else none

/-- The token of a string, given the text between its quotation marks. -/
def stringToken? (cs : List Char) : Option Token :=
  (StringLiteral.content? cs).map fun content => .string (String.ofList content)

/-! ### The scan -/

/-- What has been read of an unfinished token, the last character first. -/
inductive Scan
  /-- No token has begun. -/
  | idle
  /-- Letters of a word. -/
  | word (read : List Char)
  /-- Characters of a numeral. -/
  | numeral (read : List Char)
  /-- Characters after an opening quotation mark. -/
  | quoted (read : List Char)
  /-- The same, where the last character is a backslash that escapes the next one. -/
  | escaped (read : List Char)
  deriving DecidableEq, Repr

namespace Scan

/-- Read a character where no token has begun. -/
def start (c : Char) : Option (List Token × Scan) :=
  if isBlank c then some ([], .idle)
  else if c = '"' then some ([], .quoted [])
  else if isWordChar c then some ([], .word [c])
  else if startsNumeral c then some ([], .numeral [c])
  else (punctuation? c).map fun t => ([t], .idle)

/-- End a token before a character that does not belong to it, and read that character. -/
def startAfter (t : Token) (c : Char) : Option (List Token × Scan) :=
  (start c).map fun r => (t :: r.1, r.2)

/-- Read a character: the tokens that it completes, and what is unfinished after it. -/
def step : Scan → Char → Option (List Token × Scan)
  | .idle, c => start c
  | .word read, c =>
    if isWordChar c then some ([], .word (c :: read))
    else (wordToken? read.reverse).bind fun t => startAfter t c
  | .numeral read, c =>
    if isNumeralChar c then some ([], .numeral (c :: read))
    else (numberToken? read.reverse).bind fun t => startAfter t c
  | .quoted read, c =>
    if c = '"' then (stringToken? read.reverse).map fun t => ([t], .idle)
    else if c = '\\' then some ([], .escaped (c :: read))
    else some ([], .quoted (c :: read))
  | .escaped read, c => some ([], .quoted (c :: read))

/-- The token that the end of the text completes, if any. -/
def finish : Scan → Option (List Token)
  | .idle => some []
  | .word read => (wordToken? read.reverse).map fun t => [t]
  | .numeral read => (numberToken? read.reverse).map fun t => [t]
  | .quoted _ => none
  | .escaped _ => none

/-- The tokens still to come from a text. -/
def tokens? : Scan → List Char → Option (List Token)
  | scan, [] => scan.finish
  | scan, c :: cs => (scan.step c).bind fun r => (tokens? r.2 cs).map (r.1 ++ ·)

@[simp] theorem tokens?_nil (scan : Scan) : scan.tokens? [] = scan.finish := by
  cases scan <;> rfl

@[simp] theorem tokens?_cons (scan : Scan) (c : Char) (cs : List Char) :
    scan.tokens? (c :: cs) = (scan.step c).bind fun r => (r.2.tokens? cs).map (r.1 ++ ·) := by
  cases scan <;> rfl

/-- A character that completes no token. -/
theorem tokens?_cons_of_step {scan scan' : Scan} {c : Char} (h : scan.step c = some ([], scan'))
    (cs : List Char) : scan.tokens? (c :: cs) = scan'.tokens? cs := by
  rw [tokens?_cons, h, Option.bind_some]
  exact Option.map_id_apply

end Scan

/-- The tokens of a text. -/
def tokens? (cs : List Char) : Option (List Token) := Scan.idle.tokens? cs

end TunnelEvents.Json
