import TunnelEvents.Event
import TunnelEvents.Proofs.Text.Quoted

/-!
# The diagnostic of a malformed line

A malformed line may hold any bytes, and whoever sends it chooses them.  The diagnostic shows the
bytes between quotation marks, in visible characters only, and from what it shows the bytes can be
told again.

## Main results

* `Event.describe_malformed_lossless` — **the diagnostic tells every byte of the line.**
* `Event.describe_malformed_visible` — **the diagnostic is safe to print.**
-/

namespace TunnelEvents

/-- The diagnostic is a text of the grammar of quoted texts, with two words in front. -/
theorem Event.exists_spelling_describe_malformed (raw : Bytes) :
    ∃ items escaped,
      (malformed raw).describe = "Malformed Event \"" ++ String.ofList escaped ++ "\"" ∧
      Quoted.Spelling items escaped ∧ items.flatMap Quoted.Item.bytes = raw := by
  obtain ⟨items, escaped, hquote, hspelling, hbytes⟩ := Quoted.exists_spelling_quoteBytes raw
  refine ⟨items, escaped, ?_, hspelling, hbytes⟩
  have hframe : "Malformed Event \"" = "Malformed Event " ++ "\"" := by
    simp only [String.reduceAppend]
  rw [describe_malformed, hquote, Quoted.enclose_eq, hframe]
  simp only [String.append_assoc]

/-- What stands between the quotation marks of the diagnostic is read back as the line. -/
theorem Event.exists_bytes?_describe_malformed (raw : Bytes) :
    ∃ escaped, (malformed raw).describe = "Malformed Event \"" ++ escaped ++ "\"" ∧
      Quoted.bytes? escaped.toList = some raw := by
  obtain ⟨items, escaped, hdescribe, hspelling, hbytes⟩ := exists_spelling_describe_malformed raw
  refine ⟨String.ofList escaped, hdescribe, ?_⟩
  rw [String.toList_ofList, hspelling.bytes?_eq, hbytes]

/-- What stands between the quotation marks of the diagnostic is read back as the bytes of the line.
So malformed lines with one diagnostic are one line. -/
theorem Event.describe_malformed_lossless (raw : Bytes) :
    (∃ escaped, (malformed raw).describe = "Malformed Event \"" ++ escaped ++ "\"" ∧
      Quoted.bytes? escaped.toList = some raw) ∧
    ∀ other, (malformed raw).describe = (malformed other).describe ↔
      malformed raw = malformed other := by
  obtain ⟨escaped, hraw, hrawBytes⟩ := exists_bytes?_describe_malformed raw
  refine ⟨⟨escaped, hraw, hrawBytes⟩, fun other => ⟨fun h => ?_, fun h => by rw [h]⟩⟩
  obtain ⟨escaped', hother, hotherBytes⟩ := exists_bytes?_describe_malformed other
  -- the frame is the same for both, so what stands in it is
  rw [hraw, hother, String.append_left_inj, String.append_right_inj] at h
  rw [h, hotherBytes] at hrawBytes
  rw [Option.some.inj hrawBytes]

example : (Event.malformed [0x61, 0xFF, 0x5C, 0x22, 0x0A]).describe
    = "Malformed Event \"a\\xff\\\\\\\"\\n\"" := by decide

/-- No character of the diagnostic is an ASCII control character or in one of the ranges of
characters without a visible form.  Between its two quotation marks there are visible characters and
escapes only, and every further double quotation mark is part of an escape. -/
theorem Event.describe_malformed_visible (raw : Bytes) :
    (∀ c ∈ (malformed raw).describe.toList, Quoted.IsVisible c) ∧
    ∃ items escaped,
      (malformed raw).describe = "Malformed Event \"" ++ String.ofList escaped ++ "\"" ∧
      Quoted.Spelling items escaped ∧ Quoted.MarksEscaped escaped := by
  obtain ⟨items, escaped, hdescribe, hspelling, -⟩ := exists_spelling_describe_malformed raw
  refine ⟨?_, items, escaped, hdescribe, hspelling, hspelling.marksEscaped⟩
  have hframe : ∀ c ∈ "Malformed Event \"".toList, Quoted.IsVisible c := by
    have key : "Malformed Event \"".toList.all (fun c => 0x20 ≤ c.toNat && c.toNat < 0x7F) := by
      decide
    intro c hc
    have hrange := List.all_eq_true.mp key c hc
    rw [Bool.and_eq_true, decide_eq_true_eq, decide_eq_true_eq] at hrange
    exact Quoted.isVisible_of_ascii hrange.1 hrange.2
  have hmark : ∀ c ∈ "\"".toList, Quoted.IsVisible c := by
    rw [show "\"".toList = ['"'] from rfl, List.forall_mem_singleton]
    exact hframe '"' (by decide)
  have hescaped : ∀ c ∈ (String.ofList escaped).toList, Quoted.IsVisible c := by
    rw [String.toList_ofList]
    exact hspelling.isVisible
  rw [hdescribe, String.toList_append, String.toList_append]
  simp only [List.forall_mem_append]
  exact ⟨⟨hframe, hescaped⟩, hmark⟩

end TunnelEvents
