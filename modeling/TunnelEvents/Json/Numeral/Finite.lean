import TunnelEvents.Json.Numeral

/-!
# Numerals within the range of floating-point numbers

A document is refused if one of its numbers exceeds the finite range of 64-bit binary
floating-point numbers.  The number is taken in two parts: a significand of at most 64 bits, which
takes up the digits while they fit, and a power of ten.  Each part is rounded to 53 significant
bits, and the product has to stay below the midpoint between the largest finite number and the next
power of two, from which on it would round to infinity.

Whole numbers below 2^64 are always within the range, and so are numbers whose power of ten is not
positive.

## Main definitions

* `Significand` — the digits taken up so far and the power of ten that they are scaled by.
* `Numeral.significand` — the significand of a numeral before its exponent is applied.
* `roundToDouble` — the nearest number of 53 significant bits.
* `Numeral.isFinite` — whether a numeral is within the range.
-/

namespace TunnelEvents.Json

/-- Digits as a whole number below 2^64, scaled by a power of ten. -/
structure Significand where
  /-- The digits taken up. -/
  value : Nat
  /-- The power of ten. -/
  scale : Int
  deriving DecidableEq, Repr

/-- The value of an ASCII digit. -/
def digitValue (c : Char) : Nat := c.toNat - '0'.toNat

/-- Take up the digits of a whole part.  From the first digit that does not fit in 64 bits on, each
digit only raises the power of ten. -/
def Significand.ofWhole (value : Nat) : List Char → Significand
  | [] => ⟨value, 0⟩
  | c :: cs =>
    if value * 10 + digitValue c < UInt64.size then ofWhole (value * 10 + digitValue c) cs
    else ⟨value, cs.length + 1⟩

/-- Take up the digits of a fraction.  The first digit that does not fit in 64 bits and those after
it are dropped. -/
def Significand.addFraction (s : Significand) : List Char → Significand
  | [] => s
  | c :: cs =>
    if s.value * 10 + digitValue c < UInt64.size then
      addFraction ⟨s.value * 10 + digitValue c, s.scale - 1⟩ cs
    else s

/-- The nearest number of at most 53 significant bits; of two equally near ones, that whose last bit
is 0. -/
def roundToDouble (n : Nat) : Nat :=
  let unit := Nat.pow 2 (n.log2 - 52)
  let low := n / unit * unit
  let twice := 2 * (n - low)
  if twice < unit ∨ twice = unit ∧ n / unit % 2 = 0 then low else low + unit

namespace Numeral

/-- The significand of a numeral before its exponent is applied. -/
def significand (n : Numeral) : Significand :=
  (Significand.ofWhole 0 n.whole).addFraction (n.fraction.getD [])

/-- The power of ten that the exponent stands for. -/
def exponentValue (n : Numeral) : Int :=
  match n.exponent with
  | none => 0
  | some e =>
    let magnitude : Int := Nat.ofDigitChars 10 e.digits 0
    if e.sign = some .minus then -magnitude else magnitude

/-- The power of ten of the whole numeral. -/
def scale (n : Numeral) : Int := n.significand.scale + n.exponentValue

/-- Whether a numeral is within the finite range of 64-bit binary floating-point numbers. -/
def isFinite (n : Numeral) : Bool :=
  n.significand.value = 0 || n.scale ≤ 0 ||
    (n.scale ≤ 308 &&
      roundToDouble n.significand.value * roundToDouble (Nat.pow 10 n.scale.toNat)
        < Nat.pow 2 1024 - Nat.pow 2 970)

end Numeral

end TunnelEvents.Json
