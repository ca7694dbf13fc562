import TunnelEvents.Line.Canonical
import TunnelEvents.Proofs.Text.Decimal
import TunnelEvents.Proofs.Text.Utf8.Boundary

/-!
# Fields of texts and slices of bytes

A text is divided at its commas and bytes are divided at theirs, and it makes no difference whether
a body is decoded before or after it is divided: a comma in the text is a comma in the bytes, and
no sequence goes on across one.  Counters that are written as decimal numerals are read with their
values, and such a numeral holds no comma.

Dividing loses nothing: the fields with commas between them are the text again, and every list of
fields but the empty one is that of a text.

## Main results

* `cut?_eq_some_iff`, `cut?_eq_none_iff` — what a cut at the first separator finds.
* `Fields.isField_of_mem_split` — the fields of a text hold no comma.
* `Fields.split_append` — the fields before and after a comma are the fields of the whole.
* `Fields.length_split` — a text has one field more than it has commas.
* `Fields.split_decodeLossy` — **the fields of a decoded body are its decoded slices.**
* `Fields.counter_repr` — a counter is read as it was written.
* `Fields.split_lossless` — **texts are lists of fields, and a missing field is an empty one.**
-/

namespace TunnelEvents

/-! ### Cutting at the first separator -/

section Cut

variable {α : Type _} [DecidableEq α] {sep : α}

/-- A separator that does not occur before it is the first one. -/
theorem cut?_append_cons {xs : List α} (h : sep ∉ xs) (ys : List α) :
    cut? sep (xs ++ sep :: ys) = some (xs, ys) := by
  induction xs with
  | nil => exact cut?_cons_self sep ys
  | cons x xs ih =>
    rw [List.mem_cons, not_or] at h
    rw [List.cons_append, cut?_cons_of_ne (Ne.symm h.1), ih h.2]
    rfl

theorem cut?_eq_some_iff {l xs ys : List α} :
    cut? sep l = some (xs, ys) ↔ l = xs ++ sep :: ys ∧ sep ∉ xs := by
  constructor
  · intro h
    induction l generalizing xs with
    | nil => cases h
    | cons x l ih =>
      by_cases hx : x = sep
      · subst hx
        rw [cut?_cons_self, Option.some.injEq, Prod.mk.injEq] at h
        obtain ⟨rfl, rfl⟩ := h
        exact ⟨rfl, List.not_mem_nil⟩
      · rw [cut?_cons_of_ne hx, Option.map_eq_some_iff] at h
        obtain ⟨⟨xs', ys'⟩, hl, heq⟩ := h
        rw [Prod.mk.injEq] at heq
        obtain ⟨rfl, rfl⟩ := heq
        obtain ⟨rfl, hmem⟩ := ih hl
        refine ⟨rfl, ?_⟩
        rw [List.mem_cons, not_or]
        exact ⟨Ne.symm hx, hmem⟩
  · rintro ⟨rfl, h⟩
    exact cut?_append_cons h ys

theorem cut?_eq_none_iff {l : List α} : cut? sep l = none ↔ sep ∉ l := by
  constructor
  · intro h hmem
    obtain ⟨xs, ys, rfl, hxs⟩ := List.eq_append_cons_of_mem hmem
    rw [cut?_append_cons hxs] at h
    cases h
  · intro h
    cases hc : cut? sep l with
    | none => rfl
    | some p =>
      obtain ⟨rfl, -⟩ := cut?_eq_some_iff.mp hc
      simp at h

end Cut

namespace Fields

/-! ### Splitting -/

/-- No piece of a split holds the separator. -/
theorem not_mem_of_mem_splitOn {α : Type _} [DecidableEq α] {sep : α} :
    ∀ {xs l : List α}, l ∈ xs.splitOn sep → sep ∉ l := by
  intro xs
  induction xs with
  | nil =>
    intro l hl
    rw [List.splitOn_nil, List.mem_singleton] at hl
    rw [hl]
    exact List.not_mem_nil
  | cons x xs ih =>
    intro l hl
    rw [List.splitOn_cons_eq_if_modifyHead] at hl
    by_cases hx : x = sep
    · rw [if_pos (by simpa using hx), List.mem_cons] at hl
      rcases hl with rfl | hl
      · exact List.not_mem_nil
      · exact ih hl
    · rw [if_neg (by simpa using hx)] at hl
      cases hs : xs.splitOn sep with
      | nil => exact absurd hs (List.splitOn_ne_nil sep xs)
      | cons p ps =>
        rw [hs, List.modifyHead_cons, List.mem_cons] at hl
        rw [hs] at ih
        rcases hl with rfl | hl
        · rw [List.mem_cons, not_or]
          exact ⟨Ne.symm hx, ih List.mem_cons_self⟩
        · exact ih (List.mem_cons_of_mem _ hl)

/-- The fields of a text hold no comma. -/
theorem isField_of_mem_split {body f : String} (h : f ∈ split body) : IsField f := by
  obtain ⟨l, hl, rfl⟩ := List.mem_map.mp h
  rw [IsField, String.toList_ofList]
  exact not_mem_of_mem_splitOn hl

/-- The fields before and after a comma are the fields of the whole. -/
theorem split_append (a b : String) : split (a ++ "," ++ b) = split a ++ split b := by
  have htext : (a ++ "," ++ b).toList = a.toList ++ ',' :: b.toList := by
    rw [String.toList_append, String.toList_append, List.append_assoc]
    rfl
  rw [split, htext, List.splitOn_append_cons_self, List.map_append, split, split]

/-- A text without a comma is its only field. -/
theorem split_of_isField {f : String} (h : IsField f) : split f = [f] := by
  rw [split, List.splitOn_eq_singleton h, List.map_singleton, String.ofList_toList]

theorem split_ne_nil (body : String) : split body ≠ [] := by
  rw [split, ne_eq, List.map_eq_nil_iff]
  exact List.splitOn_ne_nil ',' body.toList

/-- A text without a comma is the first field where a comma follows it. -/
theorem split_append_comma {f : String} (h : IsField f) (rest : String) :
    split (f ++ "," ++ rest) = f :: split rest := by
  rw [split_append, split_of_isField h, List.singleton_append]

/-- A list has one piece more than it has separators. -/
theorem length_splitOn {α : Type _} [BEq α] [LawfulBEq α] (sep : α) (l : List α) :
    (l.splitOn sep).length = l.count sep + 1 := by
  induction l with
  | nil => simp
  | cons x xs ih =>
    rw [List.splitOn_cons_eq_if_modifyHead, List.count_cons]
    split
    · rw [List.length_cons, ih]
    · rw [List.length_modifyHead, ih, Nat.add_zero]

/-- A text has one field more than it has commas. -/
theorem length_split (body : String) : (split body).length = body.toList.count ',' + 1 := by
  rw [split, List.length_map, length_splitOn]

theorem join_eq_intercalate (fields : List String) : join fields = ",".intercalate fields := by
  apply String.toList_inj.mp
  rw [join, String.toList_ofList, String.toList_intercalate]
  rfl

theorem join_pair (f g : String) : join [f, g] = f ++ "," ++ g := by
  apply String.toList_inj.mp
  simp [join, List.intercalate_cons_cons]

/-! ### Positions -/

theorem counter_empty : counter "" = 0 := rfl

theorem textAt_eq (fields : List String) (i : Nat) : textAt fields i = fields[i]?.getD "" :=
  List.getD_eq_getElem?_getD

/-- A missing field counts what an empty one does, so a counter is read off the text. -/
theorem counterAt_eq_counter_textAt (fields : List String) (i : Nat) :
    counterAt fields i = counter (textAt fields i) := by
  rw [counterAt, textAt_eq]
  cases fields[i]? with
  | none => exact counter_empty.symm
  | some f => rfl

theorem textAt_cons_zero (f : String) (fs : List String) : textAt (f :: fs) 0 = f := rfl

theorem counterAt_cons_succ (f : String) (fs : List String) (i : Nat) :
    counterAt (f :: fs) (i + 1) = counterAt fs i := by
  rw [counterAt, List.getElem?_cons_succ, counterAt]

theorem isField_empty : IsField "" := by decide

/-- A field is without a comma, also past the end. -/
theorem isField_textAt_split (body : String) (i : Nat) : IsField (textAt (split body) i) := by
  rw [textAt_eq]
  cases h : (split body)[i]? with
  | none => exact isField_empty
  | some f => exact isField_of_mem_split (List.mem_of_getElem? h)

/-! ### Splitting and decoding -/

theorem isField_decodeLossy_iff {bs : Bytes} : IsField (Utf8.decodeLossy bs) ↔ 0x2C ∉ bs :=
  not_congr (Utf8.mem_toList_decodeLossy (b := 0x2C) (by decide) bs)

/-- A comma in the bytes is a comma in the text. -/
theorem decodeLossy_append_comma (as bs : Bytes) :
    Utf8.decodeLossy (as ++ 0x2C :: bs)
      = Utf8.decodeLossy as ++ "," ++ Utf8.decodeLossy bs := by
  apply String.toList_inj.mp
  rw [Utf8.toList_decodeLossy_append_cons (by decide), String.toList_append, String.toList_append,
    List.append_assoc]
  rfl

/-- Slices with commas between them decode to their texts with commas between them. -/
theorem toList_decodeLossy_intercalate : ∀ slices : List Bytes,
    (Utf8.decodeLossy ([0x2C].intercalate slices)).toList
      = [','].intercalate (slices.map fun s => (Utf8.decodeLossy s).toList) := by
  intro slices
  induction slices with
  | nil => rfl
  | cons s slices ih =>
    cases slices with
    | nil => simp
    | cons t slices =>
      rw [List.map_cons] at ih ⊢
      rw [List.map_cons, List.intercalate_cons_cons, List.intercalate_cons_cons, ← ih,
        List.append_assoc, List.append_assoc, List.singleton_append, List.singleton_append,
        Utf8.toList_decodeLossy_append_cons (by decide)]
      rfl

/-- Decoding before splitting is splitting before decoding. -/
theorem split_decodeLossy (b : Bytes) :
    split (Utf8.decodeLossy b) = (b.splitOn 0x2C).map Utf8.decodeLossy := by
  have hfield : ∀ l ∈ (b.splitOn 0x2C).map fun s => (Utf8.decodeLossy s).toList, ',' ∉ l := by
    intro l hl
    obtain ⟨s, hs, rfl⟩ := List.mem_map.mp hl
    exact isField_decodeLossy_iff.mpr (not_mem_of_mem_splitOn hs)
  -- the texts of the slices hold no comma, so joining them is undone by splitting
  have hjoin : [0x2C].intercalate (b.splitOn 0x2C) = b := List.intercalate_splitOn 0x2C
  have hsplit := calc (Utf8.decodeLossy b).toList.splitOn ','
      _ = (Utf8.decodeLossy ([0x2C].intercalate (b.splitOn 0x2C))).toList.splitOn ',' := by
        rw [hjoin]
      _ = (b.splitOn 0x2C).map fun s => (Utf8.decodeLossy s).toList := by
        rw [toList_decodeLossy_intercalate, List.splitOn_intercalate ',' hfield (by simp)]
  rw [split, hsplit, List.map_map]
  exact List.map_congr_left fun s _ => String.ofList_toList

/-! ### Counters -/

/-- A counter is read as it was written. -/
@[simp] theorem counter_repr (n : UInt64) : counter n.toNat.repr = n := by
  unfold counter
  rw [Nat.toList_repr, Decimal.unsigned?_toDigits]
  show (if n.toNat < UInt64.size then n.toNat.toUInt64 else 0) = n
  rw [if_pos n.toNat_lt_size]
  exact UInt64.ofNat_toNat

theorem isField_repr (n : Nat) : IsField n.repr := by
  intro h
  rw [Nat.toList_repr] at h
  exact absurd (List.all_eq_true.mp (Decimal.all_isDigit_toDigits n) ',' h) (by decide)

/-! ### Texts as lists of fields -/

/-- A text has fields, one more than it has commas.  They hold no comma, and with commas between
them they are the text again; any fields but none are those of the text that they make.  A position
within a list has the text of its field and the counter of it, and a position past the end has the
text and the counter of an empty field. -/
theorem split_lossless :
    (∀ body, split body ≠ [] ∧ (split body).length = body.toList.count ',' + 1 ∧
      (∀ f ∈ split body, IsField f) ∧ ",".intercalate (split body) = body) ∧
    (∀ fields : List String, fields ≠ [] → (∀ f ∈ fields, IsField f) →
      split (",".intercalate fields) = fields) ∧
    ∀ (fields : List String) (i : Nat),
      (∀ h : i < fields.length,
        textAt fields i = fields[i] ∧ counterAt fields i = counter fields[i]) ∧
      (fields.length ≤ i → textAt fields i = "" ∧ counterAt fields i = 0) ∧
      counterAt fields i = counter (textAt fields i) := by
  refine ⟨fun body => ⟨split_ne_nil body, length_split body, ?_, ?_⟩, ?_, fun fields i => ?_⟩
  · intro f hf
    exact isField_of_mem_split hf
  · rw [← join_eq_intercalate, join_split]
  · intro fields hne hfields
    rw [← join_eq_intercalate, split_join hfields hne]
  · refine ⟨fun h => ?_, fun h => ?_, counterAt_eq_counter_textAt fields i⟩
    · simp [textAt_eq, counterAt, h]
    · simp [textAt_eq, counterAt, h]

/-- Empty fields at both ends are kept, and the last position that an index can name is past the
end. -/
theorem split_lossless_empty :
    split (",".intercalate ["", "7", ""]) = ["", "7", ""] ∧
      counterAt ["", "7", ""] 1 = 7 ∧
      textAt ["", "7", ""] 18446744073709551615 = "" ∧
      counterAt ["", "7", ""] 18446744073709551615 = 0 := by
  obtain ⟨-, hjoin, hposition⟩ := split_lossless
  obtain ⟨-, hseven⟩ := (hposition ["", "7", ""] 1).1 (by decide)
  obtain ⟨htext, hcounter⟩ := (hposition ["", "7", ""] 18446744073709551615).2.1 (by decide)
  exact ⟨hjoin _ (by decide) (by decide), hseven.trans (by decide), htext, hcounter⟩

end Fields

end TunnelEvents
