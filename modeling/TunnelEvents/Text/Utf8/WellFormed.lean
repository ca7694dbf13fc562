import TunnelEvents.Text.Utf8

/-!
# Well-formed byte sequences

A character is encoded by one of nine kinds of byte sequences, told apart by the range of the first
byte.  The ranges of the second byte leave out overlong forms, surrogates and values above U+10FFFF.

Bytes are decoded from left to right.  A well-formed sequence gives the character that it encodes.
Where none begins, one replacement character stands for as many bytes as could still have begun a
well-formed sequence, or for a single byte if that one could not.  This is the rule that a decoder
has to follow, stated without one.

## Main definitions

* `Utf8.kinds` — the ranges of the bytes, for each kind of sequence.
* `Utf8.WellFormed` — a byte sequence is of one of the kinds.
* `Utf8.Valid` — a byte sequence is made of well-formed ones.
* `Utf8.Unfinished` — a byte sequence begins a well-formed one and is none itself.
* `Utf8.MaximalSubpart` — the bytes that one replacement character stands for.
* `Utf8.Decodes` — the text of a byte sequence.
-/

namespace TunnelEvents.Utf8

/-- The closed ranges of the bytes of a sequence, for each kind of sequence. -/
def kinds : List (List (UInt8 × UInt8)) :=
  [[(0x00, 0x7F)],
   [(0xC2, 0xDF), (0x80, 0xBF)],
   [(0xE0, 0xE0), (0xA0, 0xBF), (0x80, 0xBF)],
   [(0xE1, 0xEC), (0x80, 0xBF), (0x80, 0xBF)],
   [(0xED, 0xED), (0x80, 0x9F), (0x80, 0xBF)],
   [(0xEE, 0xEF), (0x80, 0xBF), (0x80, 0xBF)],
   [(0xF0, 0xF0), (0x90, 0xBF), (0x80, 0xBF), (0x80, 0xBF)],
   [(0xF1, 0xF3), (0x80, 0xBF), (0x80, 0xBF), (0x80, 0xBF)],
   [(0xF4, 0xF4), (0x80, 0x8F), (0x80, 0xBF), (0x80, 0xBF)]]

/-- Each byte lies in the range at its place, and there are as many bytes as ranges. -/
def Fits : List (UInt8 × UInt8) → Bytes → Prop
  | [], [] => True
  | r :: rs, b :: bs => (r.1 ≤ b ∧ b ≤ r.2) ∧ Fits rs bs
  | _, _ => False

/-- A byte sequence that encodes one character. -/
def WellFormed (bytes : Bytes) : Prop := ∃ kind ∈ kinds, Fits kind bytes

/-- A byte sequence that is made of well-formed ones. -/
inductive Valid : Bytes → Prop
  /-- No byte at all. -/
  | nil : Valid []
  /-- A well-formed sequence and more. -/
  | append {bytes rest : Bytes} : WellFormed bytes → Valid rest → Valid (bytes ++ rest)

/-- A byte sequence that more bytes can make well formed. -/
def Unfinished (bytes : Bytes) : Prop := bytes ≠ [] ∧ ∃ more, more ≠ [] ∧ WellFormed (bytes ++ more)

/-- The bytes that one replacement character stands for where `rest` follows them and no
well-formed sequence begins with them. -/
inductive MaximalSubpart : (run rest : Bytes) → Prop
  /-- The longest unfinished sequence that begins there. -/
  | unfinished {run rest : Bytes} : Unfinished run →
    (∀ longer, longer <+: run ++ rest → Unfinished longer → longer.length ≤ run.length) →
    MaximalSubpart run rest
  /-- A single byte, where no unfinished sequence begins. -/
  | single {b : UInt8} {rest : Bytes} : (∀ run, run <+: b :: rest → ¬ Unfinished run) →
    MaximalSubpart [b] rest

/-- The text of a byte sequence, from left to right. -/
inductive Decodes : Bytes → List Char → Prop
  /-- No byte has no text. -/
  | nil : Decodes [] []
  /-- A well-formed sequence gives the character that it encodes. -/
  | character {bytes rest : Bytes} {c : Char} {cs : List Char} : WellFormed bytes →
    String.utf8EncodeChar c = bytes → Decodes rest cs → Decodes (bytes ++ rest) (c :: cs)
  /-- Where no well-formed sequence begins, there is a replacement character. -/
  | replacement {run rest : Bytes} {cs : List Char} :
    (∀ bytes, bytes <+: run ++ rest → ¬ WellFormed bytes) → MaximalSubpart run rest →
    Decodes rest cs → Decodes (run ++ rest) ('\uFFFD' :: cs)

instance decidableFits : (ranges : List (UInt8 × UInt8)) → (bytes : Bytes) →
    Decidable (Fits ranges bytes)
  | [], [] => isTrue trivial
  | [], _ :: _ => isFalse id
  | _ :: _, [] => isFalse id
  | _ :: rs, _ :: bs => @instDecidableAnd _ _ _ (decidableFits rs bs)

instance (bytes : Bytes) : Decidable (WellFormed bytes) := by
  unfold WellFormed
  infer_instance

end TunnelEvents.Utf8
