/-!
# Decimal numerals

Numbers in management lines are written in ASCII digits.  Reading is in two steps: a word is a
numeral or it is not, whatever its length, and only then is its value compared with a range.  So
no value ever wraps.

## Main definitions

* `Decimal.natural?` — the value of a non-empty run of digits.
* `Decimal.unsigned?` — the same, after at most one plus sign.
* `Decimal.signed?` — the same, after at most one sign.
-/

namespace TunnelEvents.Decimal

/-- The value of a non-empty run of ASCII digits; leading zeros are allowed. -/
def natural? (cs : List Char) : Option Nat :=
  if cs ≠ [] ∧ cs.all Char.isDigit then some (Nat.ofDigitChars 10 cs 0) else none

/-- The value of a run of digits that one plus sign may precede. -/
def unsigned? : List Char → Option Nat
  | '+' :: cs => natural? cs
  | cs => natural? cs

/-- The value of a run of digits that one sign may precede. -/
def signed? : List Char → Option Int
  | '-' :: cs => (natural? cs).map fun n => -(n : Int)
  | cs => (unsigned? cs).map fun n => (n : Int)

@[simp] theorem natural?_nil : natural? [] = none := rfl

@[simp] theorem unsigned?_plus (cs : List Char) : unsigned? ('+' :: cs) = natural? cs := rfl

@[simp] theorem signed?_minus (cs : List Char) :
    signed? ('-' :: cs) = (natural? cs).map fun n => -(n : Int) := rfl

end TunnelEvents.Decimal
