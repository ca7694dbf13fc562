import TunnelEvents.Proofs.Line.Agreement
import TunnelEvents.Proofs.Log

/-!
# Bodies with fewer or more fields

A kind whose body is divided at every comma has a fixed number of fields, and a body may have fewer
or more.  A missing field is read as an empty one, so a comma at the end of a body makes no
difference.  Once there are enough fields nothing that follows makes a difference, and as long as
one is missing, what follows the next comma does.

## Main definitions

* `dividedTags` — the tags whose body is divided at every comma, and how many fields they have.

## Main results

* `Fields.textsAgree_append_comma`, `Fields.textsAgree_append_of_lt` — what a comma and the text
  after it leave as it was.
* `EventKind.bodiesAgree_of_textsAgree` — bodies with the same fields say the same.
* `Event.ofLine_append_comma` — **which bytes at the end of a body make no difference.**
-/

namespace TunnelEvents

/-- The tags whose body is divided at every comma, each with the number of fields that are read. -/
def dividedTags : List (String × Nat) := [("STATE", 5), ("BYTECOUNT", 2), ("BYTECOUNT_CLI", 3)]

/-! ### Fields -/

namespace Fields

/-- A missing field is empty, so a comma at the end changes no field. -/
theorem textsAgree_append_comma (a : String) (i : Nat) : TextsAgree i (a ++ "," ++ "") a := by
  rw [TextsAgree, split_append, split_of_isField isField_empty]
  rcases Nat.lt_trichotomy i (split a).length with hlt | rfl | hgt
  · rw [List.getElem?_append_left hlt]
  · rw [List.getElem?_concat_length, List.getElem?_eq_none (Nat.le_refl _)]
    rfl
  · have hlength : (split a ++ [""]).length ≤ i := by
      rw [List.length_append, List.length_singleton]
      omega
    rw [List.getElem?_eq_none hlength, List.getElem?_eq_none (Nat.le_of_lt hgt)]

/-- What follows a comma changes no field before it. -/
theorem textsAgree_append_of_lt {a : String} {i : Nat} (h : i < (split a).length) (b : String) :
    TextsAgree i (a ++ "," ++ b) a := by
  rw [TextsAgree, split_append, List.getElem?_append_left h]

/-- Where the texts agree, so do the counters. -/
theorem TextsAgree.countersAgree {i : Nat} {a b : String} (h : TextsAgree i a b) :
    CountersAgree i a b := by
  rw [textsAgree_iff] at h
  rw [countersAgree_iff, counterAt_eq_counter_textAt, counterAt_eq_counter_textAt, h]

/-- A counter after the last field of a body is read where a field was missing. -/
theorem not_countersAgree_append_one (a : String) :
    ¬ CountersAgree (split a).length (a ++ "," ++ "1") a := by
  have hone : split "1" = ["1"] := split_of_isField (by decide)
  rw [CountersAgree, split_append, hone, List.getElem?_concat_length,
    List.getElem?_eq_none (Nat.le_refl _)]
  decide

end Fields

/-! ### Bodies of a kind -/

namespace EventKind

/-- Bodies with the same fields say the same. -/
theorem bodiesAgree_of_textsAgree {k : EventKind} {n : Nat} (hk : k.fieldCount? = some n)
    {a b : String} (h : ∀ i < n, Fields.TextsAgree i a b) : k.BodiesAgree a b := by
  cases k with
  | state =>
    cases hk
    exact h
  | byteCount =>
    cases hk
    exact fun i hi => (h i hi).countersAgree
  | byteCountClient =>
    cases hk
    have hin := (h 1 (by decide)).countersAgree
    have hout := (h 2 (by decide)).countersAgree
    exact ⟨h 0 (by decide), hin, hout⟩
  | hold | echo | password | fatal => cases hk

/-- Bodies that say the same have the same counters in their fields. -/
theorem BodiesAgree.countersAgree {k : EventKind} {n : Nat} (hk : k.fieldCount? = some n)
    {a b : String} (h : k.BodiesAgree a b) {i : Nat} (hi : i < n) : Fields.CountersAgree i a b := by
  cases k with
  | state =>
    cases hk
    exact (h i hi).countersAgree
  | byteCount =>
    cases hk
    exact h i hi
  | byteCountClient =>
    cases hk
    obtain ⟨hclient, hin, hout⟩ := h
    match i, hi with
    | 0, _ => exact hclient.countersAgree
    | 1, _ => exact hin
    | 2, _ => exact hout
  | hold | echo | password | fatal => cases hk

end EventKind

/-! ### Lines -/

theorem exists_kind_of_mem_dividedTags {d : String × Nat} (h : d ∈ dividedTags) :
    ∃ k : EventKind, k.tag = d.1 ∧ k.fieldCount? = some d.2 := by
  have key : ∀ d ∈ dividedTags, ∃ k ∈ EventKind.all, k.tag = d.1 ∧ k.fieldCount? = some d.2 := by
    decide
  obtain ⟨k, -, hk⟩ := key d h
  exact ⟨k, hk⟩

/-- Two lines of a kind are read as one event exactly if their bodies agree. -/
theorem Event.ofLine_tag_append_eq_iff (k : EventKind) (a b : Bytes) :
    Event.ofLine (Utf8.encode (k.tag ++ ":") ++ a)
        = Event.ofLine (Utf8.encode (k.tag ++ ":") ++ b) ↔
      k.BodiesAgree (Utf8.decodeLossy a) (Utf8.decodeLossy b) := by
  rw [Event.ofLine_tag_append, Event.ofLine_tag_append, Event.ofBody_eq_iff]

/-- A comma at the end of a body makes no difference, and no bytes after a comma make one exactly if
the body before it has all its fields: as many commas as there are fields, but for one. -/
theorem Event.ofLine_append_comma : ∀ d ∈ dividedTags, ∀ body : Bytes,
    Event.ofLine (Utf8.encode (d.1 ++ ":") ++ (body ++ [0x2C]))
      = Event.ofLine (Utf8.encode (d.1 ++ ":") ++ body) ∧
    ((∀ rest : Bytes, Event.ofLine (Utf8.encode (d.1 ++ ":") ++ (body ++ 0x2C :: rest))
        = Event.ofLine (Utf8.encode (d.1 ++ ":") ++ body)) ↔ d.2 - 1 ≤ body.count 0x2C) := by
  intro d hd body
  obtain ⟨k, htag, hk⟩ := exists_kind_of_mem_dividedTags hd
  rw [← htag]
  have hlength : (Fields.split (Utf8.decodeLossy body)).length = body.count 0x2C + 1 :=
    Fields.length_split_decodeLossy body
  refine ⟨?_, fun h => ?_, fun hcount rest => ?_⟩
  · rw [Event.ofLine_tag_append_eq_iff, Fields.decodeLossy_append_comma, Utf8.decodeLossy_nil]
    exact EventKind.bodiesAgree_of_textsAgree hk fun i _ => Fields.textsAgree_append_comma _ i
  · rcases Nat.lt_or_ge (body.count 0x2C) (d.2 - 1) with hlt | hge
    · -- a counter in the place of a missing field is not read as a missing one
      have hone := h [0x31]
      have htext : Utf8.decodeLossy [0x31] = "1" := by decide
      rw [Event.ofLine_tag_append_eq_iff, Fields.decodeLossy_append_comma, htext] at hone
      exact absurd (hone.countersAgree hk (by omega)) (Fields.not_countersAgree_append_one _)
    · exact hge
  · rw [Event.ofLine_tag_append_eq_iff, Fields.decodeLossy_append_comma]
    refine EventKind.bodiesAgree_of_textsAgree hk fun i hi => ?_
    exact Fields.textsAgree_append_of_lt (by omega) _

/-- The last field of the state ends in a cut-off character, and what follows it is ill-formed. -/
theorem Event.ofLine_append_comma_illFormed :
    let body : Bytes := [0x31, 0x2C, 0x2C, 0x2C, 0x2C, 0xE2, 0x82]
    ("STATE", 5) ∈ dividedTags ∧ 5 - 1 ≤ body.count 0x2C ∧
      Event.ofLine (Utf8.encode ("STATE" ++ ":") ++ (body ++ [0x2C, 0xFF]))
        = .state ⟨"1", "", "", "", "\uFFFD"⟩ := by
  intro body
  have hmem : ("STATE", 5) ∈ dividedTags := by decide
  have hcount : 5 - 1 ≤ body.count 0x2C := by decide
  have hbody : Event.ofLine (Utf8.encode ("STATE" ++ ":") ++ body)
      = .state ⟨"1", "", "", "", "\uFFFD"⟩ := by decide
  obtain ⟨-, hiff⟩ := Event.ofLine_append_comma _ hmem body
  exact ⟨hmem, hcount, (hiff.mpr hcount [0xFF]).trans hbody⟩

end TunnelEvents
