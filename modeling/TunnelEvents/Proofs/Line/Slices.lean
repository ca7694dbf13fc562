import TunnelEvents.Proofs.Line.Shape

/-!
# Fields of a line as slices of its bytes

A reader of lines may divide the raw body at its commas and decode the slices, and finds the fields
of the event: neither an ill-formed run before a comma nor the number of slices makes a difference.

## Main definitions

* `sliceText`, `sliceCounter` — a slice of a body as a text and as a counter.

## Main results

* `textAt_split_decodeLossy`, `counterAt_split_decodeLossy` — a field of a decoded body is the
  slice at its position.
* `Event.ofLine_slices` — **the fields of lines are read off the slices of their bodies.**
-/

namespace TunnelEvents

/-- The text of the slice at a position between the commas of a body, empty if there is none. -/
def sliceText (body : Bytes) (i : Nat) : String :=
  (body.splitOn 0x2C)[i]?.elim "" Utf8.decodeLossy

/-- The counter of the slice at a position between the commas of a body, 0 if there is none. -/
def sliceCounter (body : Bytes) (i : Nat) : UInt64 :=
  (body.splitOn 0x2C)[i]?.elim 0 fun slice => Fields.counter (Utf8.decodeLossy slice)

theorem textAt_split_decodeLossy (body : Bytes) (i : Nat) :
    Fields.textAt (Fields.split (Utf8.decodeLossy body)) i = sliceText body i := by
  rw [Fields.split_decodeLossy, Fields.textAt_eq, List.getElem?_map, sliceText]
  cases (body.splitOn 0x2C)[i]? <;> rfl

theorem counterAt_split_decodeLossy (body : Bytes) (i : Nat) :
    Fields.counterAt (Fields.split (Utf8.decodeLossy body)) i = sliceCounter body i := by
  rw [Fields.split_decodeLossy, Fields.counterAt, List.getElem?_map, sliceCounter]
  cases (body.splitOn 0x2C)[i]? <;> rfl

theorem StateReport.ofBody_decodeLossy (body : Bytes) :
    StateReport.ofBody (Utf8.decodeLossy body)
      = ⟨sliceText body 0, sliceText body 1, sliceText body 2, sliceText body 3,
          sliceText body 4⟩ := by
  unfold StateReport.ofBody
  dsimp only
  rw [textAt_split_decodeLossy, textAt_split_decodeLossy, textAt_split_decodeLossy,
    textAt_split_decodeLossy, textAt_split_decodeLossy]

theorem ByteCount.ofBody_decodeLossy (body : Bytes) :
    ByteCount.ofBody (Utf8.decodeLossy body)
      = ⟨false, "", sliceCounter body 0, sliceCounter body 1⟩ := by
  unfold ByteCount.ofBody
  dsimp only
  rw [counterAt_split_decodeLossy, counterAt_split_decodeLossy]

theorem ByteCount.ofClientBody_decodeLossy (body : Bytes) :
    ByteCount.ofClientBody (Utf8.decodeLossy body)
      = ⟨true, sliceText body 0, sliceCounter body 1, sliceCounter body 2⟩ := by
  unfold ByteCount.ofClientBody
  dsimp only
  rw [textAt_split_decodeLossy, counterAt_split_decodeLossy, counterAt_split_decodeLossy]

/-- Decoding a body and dividing the text gives the decoded slices of the body, so the fields of a
line are those slices. -/
theorem Event.ofLine_slices (body : Bytes) :
    Fields.split (Utf8.decodeLossy body) = (body.splitOn 0x2C).map Utf8.decodeLossy ∧
    Event.ofLine (Utf8.encode "STATE:" ++ body)
      = .state ⟨sliceText body 0, sliceText body 1, sliceText body 2, sliceText body 3,
          sliceText body 4⟩ ∧
    Event.ofLine (Utf8.encode "BYTECOUNT:" ++ body)
      = .byteCount ⟨false, "", sliceCounter body 0, sliceCounter body 1⟩ ∧
    Event.ofLine (Utf8.encode "BYTECOUNT_CLI:" ++ body)
      = .byteCount ⟨true, sliceText body 0, sliceCounter body 1, sliceCounter body 2⟩ := by
  refine ⟨Fields.split_decodeLossy body, ?_, ?_, ?_⟩
  · rw [← StateReport.ofBody_decodeLossy]
    exact Event.ofLine_tag_append .state body
  · rw [← ByteCount.ofBody_decodeLossy]
    exact Event.ofLine_tag_append .byteCount body
  · rw [← ByteCount.ofClientBody_decodeLossy]
    exact Event.ofLine_tag_append .byteCountClient body

end TunnelEvents
