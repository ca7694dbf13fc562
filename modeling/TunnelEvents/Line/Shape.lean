import TunnelEvents.Line

/-!
# The shape of a line

A line has a tag if it is a word, a colon and a body.  A word holds no colon, so the colon is the
first one of the line, and a line is shaped like this in at most one way.  This states which lines
have a tag, without a reader.

## Main definitions

* `IsWord` — a text is a non-empty word of ASCII letters, digits and underscores.
* `Shaped` — a line is a word, a colon and a body.
-/

namespace TunnelEvents

/-- A non-empty word of ASCII letters, digits and underscores. -/
def IsWord (s : String) : Prop := s ≠ "" ∧ ∀ c ∈ s.toList, c.isAlphanum = true ∨ c = '_'

instance (s : String) : Decidable (IsWord s) :=
  @instDecidableAnd (s ≠ "") _ inferInstance (List.decidableBAll _ s.toList)

/-- A line is a word, a colon and a body. -/
structure Shaped (line : Bytes) (word : String) (body : Bytes) : Prop where
  /-- What stands before the colon is a word. -/
  isWord : IsWord word
  /-- What stands after the colon is the body. -/
  line_eq : line = Utf8.encode word ++ 0x3A :: body

/-- The tags of kinds are words. -/
theorem isWord_tag (k : EventKind) : IsWord k.tag := by cases k <;> decide

end TunnelEvents
