import TunnelEvents.Proofs.Text.Decimal
import TunnelEvents.Text.Decimal.Grammar

/-!
# Reading decimal numerals

A text is read as a number exactly if the grammar says that it denotes this number.  So a text
denotes at most one number; zeros in front make no difference, however many, and every number is
denoted by its digits.

## Main results

* `Decimal.natural?_eq_some_iff`, `Decimal.unsigned?_eq_some_iff`,
  `Decimal.signed?_eq_some_iff` — **what is read is what the grammar says.**
* `Decimal.denotes_withZeros`, `Decimal.signedDenotes_repr` — a number is denoted by its decimal,
  with any zeros in front.
-/

namespace TunnelEvents.Decimal

/-! ### Digits -/

/-- The digit of a value is an ASCII digit, and its code tells its value. -/
theorem getElem?_digits_iff {c : Char} {d : Nat} :
    digits[d]? = some c ↔ c.isDigit = true ∧ d = c.toNat - '0'.toNat := by
  -- the table holds the characters from U+0030 on
  have htable : ∀ d < 10, digits[d]? = some (Char.ofNat (0x30 + d)) ∧
      (Char.ofNat (0x30 + d)).isDigit = true ∧ (Char.ofNat (0x30 + d)).toNat = 0x30 + d := by
    decide
  have hzero : '0'.toNat = 0x30 := rfl
  constructor
  · intro h
    have hd : d < 10 := (List.getElem?_eq_some_iff.mp h).1
    obtain ⟨hget, hdigit, hvalue⟩ := htable d hd
    obtain rfl : Char.ofNat (0x30 + d) = c := Option.some.inj (hget.symm.trans h)
    exact ⟨hdigit, by omega⟩
  · rintro ⟨hdigit, rfl⟩
    have hrange := isDigit_iff.mp hdigit
    obtain ⟨hget, -⟩ := htable (c.toNat - '0'.toNat) (by omega)
    rw [hget, hzero, Nat.add_sub_cancel' hrange.1, Char.ofNat_toNat]

/-! ### Runs of digits -/

theorem Denotes.ne_nil {cs : List Char} {n : Nat} (h : Denotes cs n) : cs ≠ [] := by
  cases h with
  | digit _ => exact List.cons_ne_nil _ _
  | snoc _ _ => exact List.append_ne_nil_of_right_ne_nil _ (List.cons_ne_nil _ _)

theorem Denotes.all_isDigit {cs : List Char} {n : Nat} (h : Denotes cs n) :
    cs.all Char.isDigit = true := by
  induction h with
  | digit hd => simp [(getElem?_digits_iff.mp hd).1]
  | snoc _ hd ih => simp [ih, (getElem?_digits_iff.mp hd).1]

theorem Denotes.ofDigitChars_eq {cs : List Char} {n : Nat} (h : Denotes cs n) :
    Nat.ofDigitChars 10 cs 0 = n := by
  induction h with
  | digit hd =>
    rw [Nat.ofDigitChars_cons, Nat.ofDigitChars_nil, (getElem?_digits_iff.mp hd).2, Nat.mul_zero,
      Nat.zero_add]
  | snoc _ hd ih =>
    rw [Nat.ofDigitChars_append, ih, Nat.ofDigitChars_cons, Nat.ofDigitChars_nil,
      (getElem?_digits_iff.mp hd).2]

/-- Digits after a run of digits are read on from its value. -/
theorem Denotes.append {cs ds : List Char} {n : Nat} (h : Denotes cs n)
    (hds : ds.all Char.isDigit = true) : Denotes (cs ++ ds) (Nat.ofDigitChars 10 ds n) := by
  induction ds generalizing cs n with
  | nil =>
    rw [List.append_nil]
    exact h
  | cons d ds ih =>
    rw [List.all_cons, Bool.and_eq_true] at hds
    have hcons := ih (h.snoc (getElem?_digits_iff.mpr ⟨hds.1, rfl⟩)) hds.2
    rw [Nat.ofDigitChars_cons]
    rwa [List.append_assoc, List.singleton_append] at hcons

/-- Every run of digits denotes its positional value. -/
theorem denotes_ofDigitChars {cs : List Char} (hne : cs ≠ []) (h : cs.all Char.isDigit = true) :
    Denotes cs (Nat.ofDigitChars 10 cs 0) := by
  cases cs with
  | nil => exact absurd rfl hne
  | cons c cs =>
    rw [List.all_cons, Bool.and_eq_true] at h
    have hfirst : Denotes [c] (c.toNat - '0'.toNat) := .digit (getElem?_digits_iff.mpr ⟨h.1, rfl⟩)
    rw [Nat.ofDigitChars_cons, Nat.mul_zero, Nat.zero_add]
    exact hfirst.append h.2

/-- A run of digits is read as what it denotes, and nothing else is read. -/
theorem natural?_eq_some_iff {cs : List Char} {n : Nat} :
    natural? cs = some n ↔ Denotes cs n := by
  unfold natural?
  constructor
  · intro h
    split at h
    · next hcs =>
      obtain rfl := Option.some.inj h
      exact denotes_ofDigitChars hcs.1 hcs.2
    · cases h
  · intro h
    rw [if_pos ⟨h.ne_nil, h.all_isDigit⟩, h.ofDigitChars_eq]

theorem Denotes.unique {cs : List Char} {n m : Nat} (h : Denotes cs n) (h' : Denotes cs m) :
    n = m := by
  rw [← natural?_eq_some_iff] at h h'
  exact Option.some.inj (h.symm.trans h')

/-- A run of digits begins with a digit, and so with no sign. -/
theorem Denotes.isDigit_of_head? {cs : List Char} {c : Char} {n : Nat} (h : Denotes cs n)
    (hc : cs.head? = some c) : c.isDigit = true :=
  List.all_eq_true.mp h.all_isDigit c (List.mem_of_head? hc)

/-! ### Numbers as they are written -/

/-- A number is denoted by its digits. -/
theorem denotes_toDigits (n : Nat) : Denotes (Nat.toDigits 10 n) n :=
  natural?_eq_some_iff.mp (natural?_toDigits n)

theorem Denotes.zero_cons {cs : List Char} {n : Nat} (h : Denotes cs n) :
    Denotes ('0' :: cs) n := by
  induction h with
  | digit hd =>
    have hzero : Denotes ['0'] 0 := .digit rfl
    have hsnoc := hzero.snoc hd
    rwa [Nat.mul_zero, Nat.zero_add] at hsnoc
  | snoc _ hd ih => exact ih.snoc hd

/-- Zeros in front of a run of digits make no difference. -/
theorem Denotes.zeros_append {cs : List Char} {n : Nat} (h : Denotes cs n) (zeros : Nat) :
    Denotes (List.replicate zeros '0' ++ cs) n := by
  induction zeros with
  | zero => exact h
  | succ zeros ih => exact ih.zero_cons

theorem withZeros_zero (n : Nat) : withZeros 0 n = n.repr := String.empty_append

/-- The decimal of a number denotes it, with any zeros in front. -/
theorem denotes_withZeros (zeros n : Nat) : Denotes (withZeros zeros n).toList n := by
  rw [withZeros, String.toList_append, String.toList_ofList, Nat.toList_repr]
  exact (denotes_toDigits n).zeros_append zeros

/-! ### Signs -/

/-- At most one plus sign may stand before the digits of a natural number. -/
theorem unsigned?_eq_some_iff {cs : List Char} {n : Nat} :
    unsigned? cs = some n ↔ UnsignedDenotes cs n := by
  constructor
  · intro h
    unfold unsigned? at h
    split at h
    · exact .plus (natural?_eq_some_iff.mp h)
    · exact .bare (natural?_eq_some_iff.mp h)
  · rintro (h | h)
    · rw [unsigned?_of_head?_ne, natural?_eq_some_iff.mpr h]
      intro hhead
      exact absurd (h.isDigit_of_head? hhead) (by decide)
    · exact natural?_eq_some_iff.mpr h

theorem UnsignedDenotes.unique {cs : List Char} {n m : Nat} (h : UnsignedDenotes cs n)
    (h' : UnsignedDenotes cs m) : n = m := by
  rw [← unsigned?_eq_some_iff] at h h'
  exact Option.some.inj (h.symm.trans h')

theorem signed?_minus_eq_some_iff {cs : List Char} {n : Int} :
    signed? ('-' :: cs) = some n ↔ ∃ m : Nat, natural? cs = some m ∧ -(m : Int) = n := by
  rw [signed?_minus]
  cases natural? cs <;> simp

/-- Where a numeral does not begin with a minus sign, its number is not negative. -/
theorem signed?_eq_some_iff_of_head?_ne {cs : List Char} {n : Int} (h : cs.head? ≠ some '-') :
    signed? cs = some n ↔ ∃ m : Nat, unsigned? cs = some m ∧ (m : Int) = n := by
  unfold signed?
  split
  · exact absurd rfl h
  · cases unsigned? cs <;> simp

/-- At most one sign may stand before the digits of an integer. -/
theorem signed?_eq_some_iff {cs : List Char} {n : Int} :
    signed? cs = some n ↔ SignedDenotes cs n := by
  constructor
  · intro h
    by_cases hhead : cs.head? = some '-'
    · obtain ⟨ds, rfl⟩ := List.head?_eq_some_iff.mp hhead
      obtain ⟨m, hm, rfl⟩ := signed?_minus_eq_some_iff.mp h
      exact .minus (natural?_eq_some_iff.mp hm)
    · obtain ⟨m, hm, rfl⟩ := (signed?_eq_some_iff_of_head?_ne hhead).mp h
      rcases unsigned?_eq_some_iff.mp hm with hm | hm
      · exact .bare hm
      · exact .plus hm
  · rintro (h | h | h)
    · have hhead : cs.head? ≠ some '-' := fun hc =>
        absurd (h.isDigit_of_head? hc) (by decide)
      exact (signed?_eq_some_iff_of_head?_ne hhead).mpr
        ⟨_, unsigned?_eq_some_iff.mpr (.bare h), rfl⟩
    · exact (signed?_eq_some_iff_of_head?_ne (by simp)).mpr
        ⟨_, unsigned?_eq_some_iff.mpr (.plus h), rfl⟩
    · exact signed?_minus_eq_some_iff.mpr ⟨_, natural?_eq_some_iff.mpr h, rfl⟩

/-- An integer is denoted by its decimal. -/
theorem signedDenotes_repr (n : Int) : SignedDenotes n.repr.toList n := by
  cases n with
  | ofNat n =>
    show SignedDenotes n.repr.toList n
    rw [Nat.toList_repr]
    exact .bare (denotes_toDigits n)
  | negSucc n =>
    show SignedDenotes ("-" ++ (n + 1).repr).toList (-((n + 1 : Nat) : Int))
    rw [String.toList_append, Nat.toList_repr]
    exact .minus (denotes_toDigits (n + 1))

end TunnelEvents.Decimal
