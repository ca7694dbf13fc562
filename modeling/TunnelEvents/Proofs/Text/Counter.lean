import TunnelEvents.Proofs.Text.Decimal.Grammar
import TunnelEvents.Proofs.Text.Fields

/-!
# Counters never wrap

A field that denotes a number below 2^64 is that counter, and every other field counts 0: a field
that is no numeral, and one whose number is too large.  So a counter is never a remainder of the
number that was sent, and one that is not 0 tells the number.

## Main results

* `Fields.counter_of_denotes`, `Fields.counter_of_not_denotes` — what a field counts.
* `Fields.counter_denotes` — **a field counts what it denotes, or nothing.**
-/

namespace TunnelEvents.Fields

open Decimal

/-- A field that denotes a number of 64 bits counts this number. -/
theorem counter_of_denotes {s : String} {n : Nat} (h : UnsignedDenotes s.toList n)
    (hn : n < UInt64.size) : (counter s).toNat = n := by
  unfold counter
  rw [unsigned?_eq_some_iff.mpr h]
  show (if n < UInt64.size then n.toUInt64 else 0).toNat = n
  rw [if_pos hn]
  exact UInt64.toNat_ofNat_of_lt' hn

/-- Any other field counts 0. -/
theorem counter_of_not_denotes {s : String} (h : ∀ n < UInt64.size, ¬ UnsignedDenotes s.toList n) :
    counter s = 0 := by
  unfold counter
  cases hs : unsigned? s.toList with
  | none => rfl
  | some n =>
    refine if_neg fun hn => ?_
    exact h n hn (unsigned?_eq_some_iff.mp hs)

/-- A field whose counter is not 0 denotes a number of 64 bits. -/
theorem exists_of_counter_ne_zero {s : String} (h : counter s ≠ 0) :
    ∃ n < UInt64.size, UnsignedDenotes s.toList n := by
  apply Classical.byContradiction
  intro hnone
  exact h (counter_of_not_denotes fun n hn hs => hnone ⟨n, hn, hs⟩)

/-- A field that denotes a number below 2^64 counts this number, and every other field counts 0.
So every number of 64 bits may be sent with any zeros and a plus sign in front, and a counter that
is not 0 is the number that the field denotes. -/
theorem counter_denotes :
    (∀ s n, UnsignedDenotes s.toList n → n < UInt64.size → (counter s).toNat = n) ∧
    (∀ s, (∀ n < UInt64.size, ¬ UnsignedDenotes s.toList n) → counter s = 0) ∧
    (∀ (zeros : Nat) (n : UInt64), counter (withZeros zeros n.toNat) = n ∧
      counter ("+" ++ withZeros zeros n.toNat) = n) ∧
    ∀ s n, counter s ≠ 0 → (UnsignedDenotes s.toList n ↔ n = (counter s).toNat) := by
  refine ⟨fun s n => counter_of_denotes, fun s => counter_of_not_denotes, fun zeros n => ?_,
    fun s n h => ?_⟩
  · have hbare := denotes_withZeros zeros n.toNat
    have hplus : UnsignedDenotes ("+" ++ withZeros zeros n.toNat).toList n.toNat := by
      rw [String.toList_append]
      exact .plus hbare
    exact ⟨UInt64.toNat_inj.mp (counter_of_denotes (.bare hbare) n.toNat_lt),
      UInt64.toNat_inj.mp (counter_of_denotes hplus n.toNat_lt)⟩
  · obtain ⟨m, hm, hs⟩ := exists_of_counter_ne_zero h
    have hcounter := counter_of_denotes hs hm
    constructor
    · intro hn
      rw [hcounter]
      exact hn.unique hs
    · rintro rfl
      rwa [hcounter]

/-- The largest counter may have a plus sign and zeros in front; the number after it is no counter,
and neither is a number with a minus sign. -/
theorem counter_denotes_limit :
    (counter "+0018446744073709551615").toNat = 18446744073709551615 ∧
      counter "18446744073709551616" = 0 ∧ counter "-5" = 0 ∧
      UnsignedDenotes "007".toList 7 := by
  obtain ⟨hdenotes, hother, -, hnonzero⟩ := counter_denotes
  have hlargest : UnsignedDenotes "+0018446744073709551615".toList 18446744073709551615 :=
    unsigned?_eq_some_iff.mp (by decide)
  have hnext : UnsignedDenotes "18446744073709551616".toList 18446744073709551616 :=
    unsigned?_eq_some_iff.mp (by decide)
  have hminus : unsigned? "-5".toList = none := by decide
  have hseven : counter "007" = 7 := by decide
  refine ⟨hdenotes _ _ hlargest (by decide), hother _ fun n hn hs => ?_,
    hother _ fun n hn hs => ?_, ?_⟩
  · rw [hs.unique hnext] at hn
    exact absurd hn (by decide)
  · rw [← unsigned?_eq_some_iff, hminus] at hs
    cases hs
  · rw [hnonzero _ _ (by rw [hseven]; decide), hseven]
    rfl

end TunnelEvents.Fields
