import TunnelEvents.Json.Numeral.Finite
import TunnelEvents.Json.Token
import TunnelEvents.Proofs.Text.Decimal

/-!
# Reading a numeral as it is written

Every part of a numeral begins with a character that cannot belong to the part before it, so the
parts are found again where they were put together.

## Main results

* `Numeral.ofSpelling?_spelling` — **a valid numeral is read from its text.**
* `Numeral.exists_spelling_eq_cons` — what a numeral begins with, and what stands in it.
* `Numeral.valid_ofNat`, `Numeral.isFinite_of_digits` — a number has a valid numeral, and one of 64
  bits is within the finite range.
-/

namespace TunnelEvents.Json

/-! ### Runs of digits -/

theorem areDigits_iff {ds : List Char} :
    areDigits ds = true ↔ ds ≠ [] ∧ ∀ c ∈ ds, c.isDigit = true := by
  rw [areDigits, Bool.and_eq_true, List.all_eq_true, Bool.not_eq_true', List.isEmpty_eq_false_iff]

/-- A run of digits ends where no digit follows. -/
theorem takeWhile_isDigit_append {ds rest : List Char} (hd : areDigits ds = true)
    (hr : rest.takeWhile Char.isDigit = []) : (ds ++ rest).takeWhile Char.isDigit = ds := by
  rw [List.takeWhile_append_of_pos (areDigits_iff.mp hd).2, hr, List.append_nil]

theorem dropWhile_isDigit_append {ds rest : List Char} (hd : areDigits ds = true)
    (hr : rest.takeWhile Char.isDigit = []) : (ds ++ rest).dropWhile Char.isDigit = rest := by
  have hsplit := List.takeWhile_append_dropWhile (p := Char.isDigit) (l := rest)
  rw [hr, List.nil_append] at hsplit
  rw [List.dropWhile_append_of_pos (areDigits_iff.mp hd).2, hsplit]

/-- A run of digits does not begin with anything else. -/
theorem head?_ne_of_areDigits {ds : List Char} (hd : areDigits ds = true) {c : Char}
    (hc : c.isDigit = false) : ds.head? ≠ some c := by
  intro h
  have hmem := (areDigits_iff.mp hd).2 c (List.mem_of_head? h)
  rw [hc] at hmem
  exact absurd hmem (by decide)

namespace Numeral

/-! ### Exponents -/

theorem signAndDigits_of_areDigits {ds : List Char} (hd : areDigits ds = true) :
    signAndDigits ds = (none, ds) := by
  unfold signAndDigits
  split
  · exact absurd rfl (head?_ne_of_areDigits hd (c := '+') (by decide))
  · exact absurd rfl (head?_ne_of_areDigits hd (c := '-') (by decide))
  · rfl

theorem signAndDigits_append {sign : Option Sign} {ds : List Char} (hd : areDigits ds = true) :
    signAndDigits ((sign.map Sign.char).toList ++ ds) = (sign, ds) := by
  cases sign with
  | none => exact signAndDigits_of_areDigits hd
  | some s => cases s <;> rfl

theorem exponent?_exponentSpelling {e : Exponent} (he : areDigits e.digits = true) :
    exponent? (exponentSpelling e) = some (some e) := by
  obtain ⟨capital, sign, ds⟩ := e
  have hmark : exponentAfterMark? capital ((sign.map Sign.char).toList ++ ds)
      = some ⟨capital, sign, ds⟩ := by
    rw [exponentAfterMark?, signAndDigits_append he, if_pos he]
  cases capital with
  | false => exact congrArg (Option.map some) hmark
  | true => exact congrArg (Option.map some) hmark

/-- The text of an exponent that may be absent is read as that exponent. -/
theorem exponent?_getD {exponent : Option Exponent}
    (he : ∀ e ∈ exponent, areDigits e.digits = true) :
    exponent? ((exponent.map exponentSpelling).getD []) = some exponent := by
  cases exponent with
  | none => rfl
  | some e => exact exponent?_exponentSpelling (he e rfl)

/-- An exponent begins with a letter. -/
theorem takeWhile_isDigit_exponent (exponent : Option Exponent) :
    ((exponent.map exponentSpelling).getD []).takeWhile Char.isDigit = [] := by
  cases exponent with
  | none => rfl
  | some e =>
    obtain ⟨capital, sign, ds⟩ := e
    cases capital <;> rfl

/-! ### Fractions -/

/-- A fraction begins with a point. -/
theorem takeWhile_isDigit_fraction (fraction : Option (List Char)) {rest : List Char}
    (hr : rest.takeWhile Char.isDigit = []) :
    (fractionSpelling fraction ++ rest).takeWhile Char.isDigit = [] := by
  cases fraction with
  | none => exact hr
  | some ds => rfl

theorem fraction?_exponent (exponent : Option Exponent) :
    fraction? ((exponent.map exponentSpelling).getD [])
      = some (none, (exponent.map exponentSpelling).getD []) := by
  cases exponent with
  | none => rfl
  | some e =>
    obtain ⟨capital, sign, ds⟩ := e
    cases capital <;> rfl

theorem fraction?_append {fraction : Option (List Char)} (exponent : Option Exponent)
    (hf : ∀ ds ∈ fraction, areDigits ds = true) :
    fraction? (fractionSpelling fraction ++ (exponent.map exponentSpelling).getD [])
      = some (fraction, (exponent.map exponentSpelling).getD []) := by
  cases fraction with
  | none => exact fraction?_exponent exponent
  | some ds =>
    have hds := hf ds rfl
    have htake := takeWhile_isDigit_append hds (takeWhile_isDigit_exponent exponent)
    have hdrop := dropWhile_isDigit_append hds (takeWhile_isDigit_exponent exponent)
    rw [fractionSpelling, List.cons_append, fraction?, htake, hdrop,
      if_neg (areDigits_iff.mp hds).1]

/-! ### Whole numerals -/

theorem areDigits_of_isWhole {ds : List Char} (h : isWhole ds = true) : areDigits ds = true :=
  (Bool.and_eq_true _ _ ▸ h).1

/-- The text of a numeral after its minus sign. -/
theorem magnitude?_append {n : Numeral} (h : n.Valid) (negative : Bool) :
    magnitude? negative (n.whole ++ (fractionSpelling n.fraction
        ++ (n.exponent.map exponentSpelling).getD []))
      = some { n with negative := negative } := by
  obtain ⟨hwhole, hfraction, hexponent⟩ := h
  -- neither a fraction nor an exponent begins with a digit
  have hrest := takeWhile_isDigit_fraction n.fraction
    (takeWhile_isDigit_exponent n.exponent)
  have htake := takeWhile_isDigit_append (areDigits_of_isWhole hwhole) hrest
  have hdrop := dropWhile_isDigit_append (areDigits_of_isWhole hwhole) hrest
  rw [magnitude?, htake, hdrop, if_pos hwhole, fraction?_append n.exponent hfraction]
  change (exponent? ((n.exponent.map exponentSpelling).getD [])).bind _ = _
  rw [exponent?_getD hexponent]
  rfl

/-- A valid numeral is read from its text. -/
theorem ofSpelling?_spelling {n : Numeral} (h : n.Valid) : ofSpelling? n.spelling = some n := by
  obtain ⟨negative, whole, fraction, exponent⟩ := n
  have hmagnitude := magnitude?_append h negative
  have hdigits := areDigits_of_isWhole h.1
  rw [spelling, List.append_assoc, List.append_assoc]
  cases negative with
  | true => exact hmagnitude
  | false =>
    rw [if_neg Bool.false_ne_true, List.nil_append]
    unfold ofSpelling?
    split
    · next cs heq =>
      -- Without a sign the first character is a digit of the whole part.
      have hhead := congrArg List.head? heq
      rw [List.head?_append] at hhead
      cases hw : whole.head? with
      | none => exact absurd (List.head?_eq_none_iff.mp hw) (areDigits_iff.mp hdigits).1
      | some c =>
        rw [hw, Option.some_or, List.head?_cons] at hhead
        rw [Option.some.inj hhead] at hw
        exact absurd hw (head?_ne_of_areDigits hdigits (by decide))
    · exact hmagnitude

/-! ### The characters of a numeral -/

theorem isNumeralChar_of_isDigit {c : Char} (h : c.isDigit = true) : isNumeralChar c = true := by
  rw [isNumeralChar, h]
  rfl

theorem isNumeralChar_of_mem_exponentSpelling {e : Exponent} (he : areDigits e.digits = true)
    {c : Char} (hc : c ∈ exponentSpelling e) : isNumeralChar c = true := by
  obtain ⟨capital, sign, ds⟩ := e
  rw [exponentSpelling, List.cons_append, List.mem_cons, List.mem_append] at hc
  obtain rfl | hc | hc := hc
  · cases capital <;> rfl
  · rw [Option.mem_toList, Option.map_eq_some_iff] at hc
    obtain ⟨s, -, rfl⟩ := hc
    cases s <;> rfl
  · exact isNumeralChar_of_isDigit ((areDigits_iff.mp he).2 c hc)

theorem isNumeralChar_of_mem_spelling {n : Numeral} (h : n.Valid) {c : Char}
    (hc : c ∈ n.spelling) : isNumeralChar c = true := by
  obtain ⟨negative, whole, fraction, exponent⟩ := n
  obtain ⟨hwhole, hfraction, hexponent⟩ := h
  simp only [spelling, List.mem_append] at hc
  obtain ((hc | hc) | hc) | hc := hc
  · cases negative with
    | false => cases hc
    | true =>
      obtain rfl := List.mem_singleton.mp hc
      rfl
  · exact isNumeralChar_of_isDigit ((areDigits_iff.mp (areDigits_of_isWhole hwhole)).2 c hc)
  · cases fraction with
    | none => cases hc
    | some ds =>
      obtain rfl | hc := List.mem_cons.mp hc
      · rfl
      · exact isNumeralChar_of_isDigit ((areDigits_iff.mp (hfraction ds rfl)).2 c hc)
  · cases exponent with
    | none => cases hc
    | some e => exact isNumeralChar_of_mem_exponentSpelling (hexponent e rfl) hc

/-- A numeral begins with a digit or a minus sign, and only characters of numerals follow. -/
theorem exists_spelling_eq_cons {n : Numeral} (h : n.Valid) :
    ∃ c cs, n.spelling = c :: cs ∧ startsNumeral c = true ∧
      ∀ d ∈ cs, isNumeralChar d = true := by
  have hchars := fun d => isNumeralChar_of_mem_spelling h (c := d)
  have hstart : ∃ c cs, n.spelling = c :: cs ∧ startsNumeral c = true := by
    obtain ⟨negative, whole, fraction, exponent⟩ := n
    cases negative with
    | true => exact ⟨'-', _, rfl, rfl⟩
    | false =>
      obtain ⟨hne, hdigits⟩ := areDigits_iff.mp (areDigits_of_isWhole h.1)
      obtain ⟨c, cs, rfl⟩ := List.exists_cons_of_ne_nil hne
      refine ⟨c, _, rfl, ?_⟩
      rw [startsNumeral, hdigits c List.mem_cons_self]
      rfl
  obtain ⟨c, cs, heq, hc⟩ := hstart
  refine ⟨c, cs, heq, hc, fun d hd => hchars d ?_⟩
  rw [heq]
  exact List.mem_cons_of_mem c hd

/-! ### Natural numbers -/

theorem valid_ofNat (n : Nat) : (ofNat n).Valid := by
  have hdigits : areDigits (Nat.toDigits 10 n) = true := by
    rw [areDigits_iff]
    exact ⟨Nat.toDigits_ne_nil, List.all_eq_true.mp (Decimal.all_isDigit_toDigits n)⟩
  refine ⟨?_, fun _ h => absurd h (Option.not_mem_none _),
    fun _ h => absurd h (Option.not_mem_none _)⟩
  rw [isWhole, Bool.and_eq_true]
  refine ⟨hdigits, ?_⟩
  by_cases hn : n = 0
  · subst hn
    rfl
  · have hhead := Decimal.head?_toDigits_ne_zero hn
    rw [Bool.or_eq_true, bne_iff_ne]
    exact .inr hhead

/-- While the digits of a whole part fit, nothing is scaled. -/
theorem ofWhole_of_lt {cs : List Char} {value : Nat}
    (h : Nat.ofDigitChars 10 cs value < UInt64.size) :
    Significand.ofWhole value cs = ⟨Nat.ofDigitChars 10 cs value, 0⟩ := by
  induction cs generalizing value with
  | nil => rfl
  | cons c cs ih =>
    rw [Nat.ofDigitChars_cons, Nat.mul_comm] at h ⊢
    have hle : value * 10 + digitValue c ≤ Nat.ofDigitChars 10 cs (value * 10 + digitValue c) := by
      rw [Nat.ofDigitChars_eq_ofDigitChars_zero]
      exact Nat.le_trans (Nat.le_mul_of_pos_left _ (Nat.pow_pos (by decide)))
        (Nat.le_add_right _ _)
    rw [Significand.ofWhole, if_pos (Nat.lt_of_le_of_lt hle h)]
    exact ih h

/-- A plain whole number of 64 bits is within the finite range, however it is written. -/
theorem isFinite_of_digits {digits : List Char}
    (h : Nat.ofDigitChars 10 digits 0 < UInt64.size) :
    (Numeral.mk false digits none none).isFinite = true := by
  have hscale : (Numeral.mk false digits none none).scale = 0 := by
    change (Significand.ofWhole 0 digits).scale + 0 = 0
    rw [ofWhole_of_lt h]
    rfl
  rw [isFinite, hscale]
  simp only [Int.le_refl, decide_true, Bool.or_true, Bool.true_or]

theorem isFinite_ofNat {n : Nat} (h : n < UInt64.size) : (ofNat n).isFinite = true := by
  have hvalue : Nat.ofDigitChars 10 (Nat.toDigits 10 n) 0 = n := Nat.ofDigitChars_ten_toDigits
  exact isFinite_of_digits (hvalue.symm ▸ h)

end Numeral

end TunnelEvents.Json
