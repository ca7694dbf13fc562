/-!
# JSON numerals

A numeral is kept as it is written: its sign, the digits of its whole part, those of its fraction
and its exponent.  So a numeral and its text determine each other, and the question which numerals
denote a counter is one about the parts that are present.

## Main definitions

* `Numeral` — the parts of a number in a JSON text.
* `Numeral.Valid` — the parts that the grammar allows.
* `Numeral.spelling` — the text of a numeral.
* `Numeral.ofSpelling?` — the numeral of a text.
* `Numeral.natural?` — the value of a plain whole number.
* `Numeral.ofNat` — the numeral of a natural number.
-/

namespace TunnelEvents.Json

/-- A written sign. -/
inductive Sign
  | plus
  | minus
  deriving DecidableEq, Repr

/-- The character of a sign. -/
def Sign.char : Sign → Char
  | .plus => '+'
  | .minus => '-'

/-- The power of ten that a numeral is scaled by. -/
structure Exponent where
  /-- Whether it is marked by `E` and not by `e`. -/
  capital : Bool
  /-- Its sign, if one is written. -/
  sign : Option Sign
  /-- Its digits. -/
  digits : List Char
  deriving DecidableEq, Repr

/-- A number as it is written. -/
structure Numeral where
  /-- Whether a minus sign comes first. -/
  negative : Bool
  /-- The digits before the point. -/
  whole : List Char
  /-- The digits after the point, if there is one. -/
  fraction : Option (List Char)
  /-- The exponent, if there is one. -/
  exponent : Option Exponent
  deriving DecidableEq, Repr

/-- At least one character, and only ASCII digits. -/
def areDigits (cs : List Char) : Bool := !cs.isEmpty && cs.all Char.isDigit

/-- The digits of a whole part: 0 alone, or digits that do not begin with 0. -/
def isWhole (cs : List Char) : Bool := areDigits cs && (cs == ['0'] || cs.head? != some '0')

namespace Numeral

/-- The whole part has no needless zero, and a fraction or an exponent has at least one digit. -/
def Valid (n : Numeral) : Prop :=
  isWhole n.whole = true ∧ (∀ ds ∈ n.fraction, areDigits ds = true) ∧
    ∀ e ∈ n.exponent, areDigits e.digits = true

/-! ### Writing -/

/-- The text of an exponent. -/
def exponentSpelling (e : Exponent) : List Char :=
  (if e.capital then 'E' else 'e') :: (e.sign.map Sign.char).toList ++ e.digits

/-- The text of a fraction that may be absent. -/
def fractionSpelling : Option (List Char) → List Char
  | none => []
  | some ds => '.' :: ds

/-- The text of a numeral. -/
def spelling (n : Numeral) : List Char :=
  (if n.negative then ['-'] else []) ++ n.whole ++ fractionSpelling n.fraction
    ++ (n.exponent.map exponentSpelling).getD []

/-! ### Reading -/

/-- The sign in front of an exponent's digits, and those digits. -/
def signAndDigits : List Char → Option Sign × List Char
  | '+' :: cs => (some .plus, cs)
  | '-' :: cs => (some .minus, cs)
  | cs => (none, cs)

/-- The exponent after its mark. -/
def exponentAfterMark? (capital : Bool) (cs : List Char) : Option Exponent :=
  if areDigits (signAndDigits cs).2 then
    some ⟨capital, (signAndDigits cs).1, (signAndDigits cs).2⟩
  else none

/-- The exponent that is all of a text, which is empty if there is no exponent. -/
def exponent? : List Char → Option (Option Exponent)
  | [] => some none
  | 'e' :: cs => (exponentAfterMark? false cs).map some
  | 'E' :: cs => (exponentAfterMark? true cs).map some
  | _ => none

/-- The fraction that a text begins with, if it begins with a point, and the rest. -/
def fraction? : List Char → Option (Option (List Char) × List Char)
  | '.' :: cs =>
    if cs.takeWhile Char.isDigit = [] then none
    else some (some (cs.takeWhile Char.isDigit), cs.dropWhile Char.isDigit)
  | cs => some (none, cs)

/-- The numeral that is all of a text without a minus sign, given whether one came before it. -/
def magnitude? (negative : Bool) (cs : List Char) : Option Numeral :=
  if isWhole (cs.takeWhile Char.isDigit) then do
    let (fraction, rest) ← fraction? (cs.dropWhile Char.isDigit)
    let exponent ← exponent? rest
    return ⟨negative, cs.takeWhile Char.isDigit, fraction, exponent⟩
  else none

/-- The numeral that is all of a text. -/
def ofSpelling? : List Char → Option Numeral
  | '-' :: cs => magnitude? true cs
  | cs => magnitude? false cs

/-! ### Plain whole numbers -/

/-- The value of a numeral without sign, fraction and exponent. -/
def natural? (n : Numeral) : Option Nat :=
  match n with
  | ⟨false, whole, none, none⟩ => some (Nat.ofDigitChars 10 whole 0)
  | _ => none

/-- The numeral of a natural number. -/
def ofNat (n : Nat) : Numeral := ⟨false, Nat.toDigits 10 n, none, none⟩

@[simp] theorem natural?_ofNat (n : Nat) : (ofNat n).natural? = some n := by
  simp [natural?, ofNat]

end Numeral

end TunnelEvents.Json
