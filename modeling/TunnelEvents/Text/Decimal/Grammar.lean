/-!
# The grammar of decimal numerals

A numeral is one ASCII digit or more.  Each further digit makes the value ten times as large and
adds its own, so there is no limit to the length of a numeral and zeros in front count nothing.
A sign may stand before the first digit, and there is at most one.

This states which texts denote a number, and which number, without a reader.

## Main definitions

* `Decimal.digits` — the digits by their values.
* `Decimal.Denotes` — a run of digits denotes a natural number.
* `Decimal.UnsignedDenotes` — the same, after at most one plus sign.
* `Decimal.SignedDenotes` — the same for an integer, after at most one sign.
* `Decimal.withZeros` — the decimal of a number with zeros in front.
-/

namespace TunnelEvents.Decimal

/-- The digits, each at the position of its value. -/
def digits : List Char := ['0', '1', '2', '3', '4', '5', '6', '7', '8', '9']

/-- A run of digits denotes a natural number. -/
inductive Denotes : List Char → Nat → Prop
  /-- A single digit denotes its value. -/
  | digit {c : Char} {d : Nat} : digits[d]? = some c → Denotes [c] d
  /-- One digit more counts ones, and those before it count tens. -/
  | snoc {cs : List Char} {c : Char} {n d : Nat} :
    Denotes cs n → digits[d]? = some c → Denotes (cs ++ [c]) (10 * n + d)

/-- A run of digits with at most one plus sign before it denotes a natural number. -/
inductive UnsignedDenotes : List Char → Nat → Prop
  | bare {cs : List Char} {n : Nat} : Denotes cs n → UnsignedDenotes cs n
  | plus {cs : List Char} {n : Nat} : Denotes cs n → UnsignedDenotes ('+' :: cs) n

/-- A run of digits with at most one sign before it denotes an integer. -/
inductive SignedDenotes : List Char → Int → Prop
  | bare {cs : List Char} {n : Nat} : Denotes cs n → SignedDenotes cs n
  | plus {cs : List Char} {n : Nat} : Denotes cs n → SignedDenotes ('+' :: cs) n
  | minus {cs : List Char} {n : Nat} : Denotes cs n → SignedDenotes ('-' :: cs) (-n)

/-- The decimal of a number with zeros in front. -/
def withZeros (zeros n : Nat) : String := String.ofList (List.replicate zeros '0') ++ n.repr

end TunnelEvents.Decimal
