/-!
# Hexadecimal digits

Escapes name bytes and code points by hexadecimal digits.  They are written in lower case and read
in either case.

## Main definitions

* `Hexadecimal.digit?` — the value of a digit.
* `Hexadecimal.byteDigits` — the two digits of a number below 256.
* `Hexadecimal.natural?` — the value of a non-empty run of digits.
-/

namespace TunnelEvents.Hexadecimal

/-- The value of a digit of either case. -/
def digit? (c : Char) : Option Nat :=
  if '0' ≤ c ∧ c ≤ '9' then some (c.toNat - '0'.toNat)
  else if 'a' ≤ c ∧ c ≤ 'f' then some (c.toNat - 'a'.toNat + 10)
  else if 'A' ≤ c ∧ c ≤ 'F' then some (c.toNat - 'A'.toNat + 10)
  else none

/-- The two digits of a number below 256, in lower case. -/
def byteDigits (n : Nat) : List Char := [Nat.digitChar (n / 16), Nat.digitChar (n % 16)]

/-- The value of digits that go on from a value read before them. -/
def valueFrom? : Nat → List Char → Option Nat
  | value, [] => some value
  | value, c :: cs => (digit? c).bind fun d => valueFrom? (16 * value + d) cs

/-- The value of a non-empty run of digits; leading zeros are allowed. -/
def natural? (cs : List Char) : Option Nat := if cs = [] then none else valueFrom? 0 cs

@[simp] theorem valueFrom?_nil (value : Nat) : valueFrom? value [] = some value := rfl

@[simp] theorem valueFrom?_cons (value : Nat) (c : Char) (cs : List Char) :
    valueFrom? value (c :: cs) = (digit? c).bind fun d => valueFrom? (16 * value + d) cs := rfl

/-- A digit that is written is read with its value. -/
theorem digit?_digitChar {n : Nat} (h : n < 16) : digit? (Nat.digitChar n) = some n := by
  have key : ∀ m < 16, digit? (Nat.digitChar m) = some m := by decide
  exact key n h

/-- The three ranges of digits and what they stand for. -/
theorem toNat_of_digit?_eq_some {c : Char} {n : Nat} (h : digit? c = some n) :
    (c.toNat = n + 0x30 ∧ n < 10) ∨ (c.toNat = n + 0x57 ∧ 10 ≤ n ∧ n < 16) ∨
      (c.toNat = n + 0x37 ∧ 10 ≤ n ∧ n < 16) := by
  unfold digit? at h
  simp only [Char.le_def, UInt32.le_iff_toNat_le] at h
  change (if 48 ≤ c.toNat ∧ c.toNat ≤ 57 then some (c.toNat - 48)
    else if 97 ≤ c.toNat ∧ c.toNat ≤ 102 then some (c.toNat - 97 + 10)
    else if 65 ≤ c.toNat ∧ c.toNat ≤ 70 then some (c.toNat - 65 + 10) else none) = some n at h
  split at h
  · cases h; omega
  · split at h
    · cases h; omega
    · split at h
      · cases h; omega
      · cases h

end TunnelEvents.Hexadecimal
