import TunnelEvents.Text.Hexadecimal

/-!
# Hexadecimal numerals

A number is written in hexadecimal digits without padding and read with its value.  What is read as
a number is made of digits.

## Main results

* `Hexadecimal.natural?_toDigits` — a written number is read with its value.
* `Hexadecimal.exists_digit?_of_natural?` — a numeral holds digits only.
-/

namespace TunnelEvents.Hexadecimal

/-- What is read as a digit is not a character that is none. -/
theorem ne_of_digit?_eq_some {c e : Char} {d : Nat} (h : digit? c = some d)
    (he : digit? e = none) : c ≠ e := by
  rintro rfl
  rw [h] at he
  cases he

theorem valueFrom?_cons_eq_some_iff {value n : Nat} {c : Char} {cs : List Char} :
    valueFrom? value (c :: cs) = some n ↔
      ∃ d, digit? c = some d ∧ valueFrom? (16 * value + d) cs = some n := by
  rw [valueFrom?_cons, Option.bind_eq_some_iff]

/-- Digits are read from left to right. -/
theorem valueFrom?_append {value n : Nat} {cs : List Char} (h : valueFrom? value cs = some n)
    (ds : List Char) : valueFrom? value (cs ++ ds) = valueFrom? n ds := by
  induction cs generalizing value with
  | nil =>
    cases h
    rfl
  | cons c cs ih =>
    obtain ⟨d, hd, h⟩ := valueFrom?_cons_eq_some_iff.mp h
    rw [List.cons_append, valueFrom?_cons, hd, Option.bind_some, ih h]

theorem valueFrom?_toDigits (n : Nat) : valueFrom? 0 (Nat.toDigits 16 n) = some n := by
  induction n using Nat.strongRecOn with
  | _ n ih =>
    by_cases hlt : n < 16
    · rw [Nat.toDigits_of_lt_base hlt, valueFrom?_cons, digit?_digitChar hlt, Option.bind_some,
        valueFrom?_nil, Nat.mul_zero, Nat.zero_add]
    · rw [Nat.toDigits_of_base_le (by decide) (by omega),
        valueFrom?_append (ih (n / 16) (by omega)), valueFrom?_cons,
        digit?_digitChar (Nat.mod_lt n (by decide)), Option.bind_some, valueFrom?_nil,
        Nat.div_add_mod]

/-- A written number is read with its value. -/
theorem natural?_toDigits (n : Nat) : natural? (Nat.toDigits 16 n) = some n := by
  rw [natural?, if_neg Nat.toDigits_ne_nil, valueFrom?_toDigits]

theorem exists_of_natural?_eq_some {cs : List Char} {n : Nat} (h : natural? cs = some n) :
    ∃ c d ds, cs = c :: ds ∧ digit? c = some d ∧ valueFrom? d ds = some n := by
  cases cs with
  | nil => cases h
  | cons c ds =>
    rw [natural?, if_neg (List.cons_ne_nil c ds)] at h
    obtain ⟨d, hd, h⟩ := valueFrom?_cons_eq_some_iff.mp h
    rw [Nat.mul_zero, Nat.zero_add] at h
    exact ⟨c, d, ds, rfl, hd, h⟩

theorem exists_digit?_of_valueFrom? {value n : Nat} {cs : List Char}
    (h : valueFrom? value cs = some n) : ∀ c ∈ cs, ∃ d, digit? c = some d := by
  induction cs generalizing value with
  | nil => exact List.forall_mem_nil _
  | cons c cs ih =>
    obtain ⟨d, hd, h⟩ := valueFrom?_cons_eq_some_iff.mp h
    rw [List.forall_mem_cons]
    exact ⟨⟨d, hd⟩, ih h⟩

/-- A numeral holds digits only. -/
theorem exists_digit?_of_natural? {cs : List Char} {n : Nat} (h : natural? cs = some n) :
    ∀ c ∈ cs, ∃ d, digit? c = some d := by
  rw [natural?] at h
  split at h
  · cases h
  · exact exists_digit?_of_valueFrom? h

end TunnelEvents.Hexadecimal
