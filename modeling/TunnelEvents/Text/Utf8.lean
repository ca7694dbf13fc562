/-!
# UTF-8 with replacement

Management lines are bytes, and nothing promises that they are valid UTF-8.  The scanner below cuts
any byte sequence into segments: a well-formed sequence becomes the scalar value it encodes, and
everything else becomes ill-formed runs.  An ill-formed run is as long as it can be while its bytes
could still have begun a well-formed sequence; a byte that can begin none is a run of its own.

The scanner reads one byte at a time and carries at most one unfinished sequence, so a scan may be
cut at any byte and resumed from the state reached there.

## Main definitions

* `Bytes` — a sequence of bytes.
* `Utf8.Segment` — a scalar value, or an ill-formed run.
* `Utf8.Pending` — a sequence that has begun and still lacks continuation bytes.
* `Utf8.segments` — the segments of a byte sequence.
* `Utf8.decodeLossy` — the text of a byte sequence, with U+FFFD for each ill-formed run.
* `Utf8.encode` — the bytes of a text.
-/

namespace TunnelEvents

/-- A sequence of bytes. -/
abbrev Bytes := List UInt8

namespace Utf8

/-- A maximal piece of a byte sequence. -/
inductive Segment
  /-- A well-formed sequence, given by the scalar value it encodes. -/
  | scalar (c : Char)
  /-- Bytes that form no well-formed sequence. -/
  | illFormed (bytes : Bytes)
  deriving DecidableEq, Repr

/-- A sequence that has begun and still lacks continuation bytes. -/
structure Pending where
  /-- The bytes read so far, in order. -/
  read : Bytes
  /-- The bits that the bytes read so far contribute. -/
  value : Nat
  /-- How many continuation bytes must follow the next one. -/
  more : Nat
  /-- The least byte that may come next. -/
  least : UInt8
  /-- The greatest byte that may come next. -/
  greatest : UInt8
  deriving DecidableEq, Repr

/-! ### One byte -/

/-- Read `b` where no sequence is pending.  The lead byte fixes the length of the sequence, and for
`E0`, `ED`, `F0` and `F4` it narrows the range of the second byte: that excludes overlong forms,
surrogates and values above U+10FFFF. -/
def start (b : UInt8) : List Segment × Option Pending :=
  let n := b.toNat
  if n < 0x80 then ([.scalar (Char.ofNat n)], none)
  else if n < 0xC2 then ([.illFormed [b]], none)
  else if n < 0xE0 then ([], some ⟨[b], n - 0xC0, 0, 0x80, 0xBF⟩)
  else if n = 0xE0 then ([], some ⟨[b], 0, 1, 0xA0, 0xBF⟩)
  else if n = 0xED then ([], some ⟨[b], 0xD, 1, 0x80, 0x9F⟩)
  else if n < 0xF0 then ([], some ⟨[b], n - 0xE0, 1, 0x80, 0xBF⟩)
  else if n = 0xF0 then ([], some ⟨[b], 0, 2, 0x90, 0xBF⟩)
  else if n < 0xF4 then ([], some ⟨[b], n - 0xF0, 2, 0x80, 0xBF⟩)
  else if n = 0xF4 then ([], some ⟨[b], 4, 2, 0x80, 0x8F⟩)
  else ([.illFormed [b]], none)

/-- Read `b` where `p` is pending.  A byte outside the range that `p` allows ends it as an
ill-formed run and is read afresh. -/
def Pending.resume (p : Pending) (b : UInt8) : List Segment × Option Pending :=
  if p.least ≤ b ∧ b ≤ p.greatest then
    let value := p.value * 64 + (b.toNat - 0x80)
    match p.more with
    | 0 => ([.scalar (Char.ofNat value)], none)
    | more + 1 => ([], some ⟨p.read ++ [b], value, more, 0x80, 0xBF⟩)
  else
    (.illFormed p.read :: (start b).1, (start b).2)

/-- Read one byte in either state. -/
def step : Option Pending → UInt8 → List Segment × Option Pending
  | none, b => start b
  | some p, b => p.resume b

@[simp] theorem step_none (b : UInt8) : step none b = start b := rfl

@[simp] theorem step_some (p : Pending) (b : UInt8) : step (some p) b = p.resume b := rfl

/-! ### Byte sequences -/

/-- What an unfinished sequence leaves at the end of the input. -/
def finish : Option Pending → List Segment
  | none => []
  | some p => [.illFormed p.read]

/-- The segments still to come after a state was reached. -/
def segmentsFrom : Option Pending → Bytes → List Segment
  | state, [] => finish state
  | state, b :: bs => (step state b).1 ++ segmentsFrom (step state b).2 bs

@[simp] theorem segmentsFrom_nil (state : Option Pending) :
    segmentsFrom state [] = finish state := by
  cases state <;> rfl

@[simp] theorem segmentsFrom_cons (state : Option Pending) (b : UInt8) (bs : Bytes) :
    segmentsFrom state (b :: bs) = (step state b).1 ++ segmentsFrom (step state b).2 bs := by
  cases state <;> rfl

/-- The segments of a byte sequence. -/
def segments (bytes : Bytes) : List Segment := segmentsFrom none bytes

/-- The character that stands for a segment: U+FFFD for an ill-formed run. -/
def Segment.toChar : Segment → Char
  | .scalar c => c
  | .illFormed _ => '\uFFFD'

@[simp] theorem Segment.toChar_scalar (c : Char) : (Segment.scalar c).toChar = c := rfl

@[simp] theorem Segment.toChar_illFormed (bytes : Bytes) :
    (Segment.illFormed bytes).toChar = '\uFFFD' := rfl

/-- The text of a byte sequence, with one U+FFFD for each ill-formed run. -/
def decodeLossy (bytes : Bytes) : String :=
  String.ofList ((segments bytes).map Segment.toChar)

@[simp] theorem toList_decodeLossy (bytes : Bytes) :
    (decodeLossy bytes).toList = (segments bytes).map Segment.toChar :=
  String.toList_ofList

/-- The UTF-8 bytes of a text. -/
def encode (s : String) : Bytes := s.toList.flatMap String.utf8EncodeChar

end Utf8

end TunnelEvents
