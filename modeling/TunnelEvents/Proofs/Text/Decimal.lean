import TunnelEvents.Text.Decimal

/-!
# Numerals that are written

A natural number is written in decimal digits without a needless zero in front, and such a numeral
is read with its value, in every place where a numeral may stand.

## Main results

* `Decimal.all_isDigit_toDigits`, `Decimal.head?_toDigits_ne_zero` — the shape of a written number.
* `Decimal.unsigned?_toDigits` — a written number is read with its value.
-/

namespace TunnelEvents.Decimal

theorem isDigit_iff {c : Char} : c.isDigit = true ↔ 0x30 ≤ c.toNat ∧ c.toNat ≤ 0x39 := by
  rw [Char.isDigit, Bool.and_eq_true, decide_eq_true_iff, decide_eq_true_iff, ge_iff_le,
    UInt32.le_iff_toNat_le, UInt32.le_iff_toNat_le]
  rfl

theorem all_isDigit_toDigits (n : Nat) : (Nat.toDigits 10 n).all Char.isDigit = true := by
  rw [List.all_eq_true]
  intro c hc
  exact Nat.isDigit_of_mem_toDigits (by decide) (by decide) hc

/-- Only the number 0 is written with a zero in front. -/
theorem head?_toDigits_ne_zero {n : Nat} (h : n ≠ 0) : (Nat.toDigits 10 n).head? ≠ some '0' := by
  induction n using Nat.strongRecOn with
  | _ n ih =>
    by_cases hlt : n < 10
    · rw [Nat.toDigits_of_lt_base hlt, List.head?_cons]
      intro h0
      exact h (Nat.digitChar_eq_zero.mp (Option.some.inj h0))
    · have hhead := ih (n / 10) (by omega) (by omega)
      rw [Nat.toDigits_of_base_le (by decide) (by omega), List.head?_append]
      cases hd : (Nat.toDigits 10 (n / 10)).head? with
      | none => exact absurd (List.head?_eq_none_iff.mp hd) Nat.toDigits_ne_nil
      | some c =>
        rw [Option.some_or]
        exact hd ▸ hhead

@[simp] theorem natural?_toDigits (n : Nat) : natural? (Nat.toDigits 10 n) = some n := by
  unfold natural?
  rw [if_pos ⟨Nat.toDigits_ne_nil, all_isDigit_toDigits n⟩, Nat.ofDigitChars_ten_toDigits]

/-- Where a numeral does not begin with a plus sign, it is a run of digits. -/
theorem unsigned?_of_head?_ne {cs : List Char} (h : cs.head? ≠ some '+') :
    unsigned? cs = natural? cs := by
  unfold unsigned?
  split
  · exact absurd rfl h
  · rfl

@[simp] theorem unsigned?_toDigits (n : Nat) : unsigned? (Nat.toDigits 10 n) = some n := by
  rw [unsigned?_of_head?_ne, natural?_toDigits]
  intro h
  have hdigit := List.all_eq_true.mp (all_isDigit_toDigits n) '+' (List.mem_of_head? h)
  exact absurd hdigit (by decide)

end TunnelEvents.Decimal
