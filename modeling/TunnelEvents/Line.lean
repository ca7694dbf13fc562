import TunnelEvents.Event
import TunnelEvents.Text.Fields

/-!
# Management lines

A line is a tag, a colon and a body.  The tag is a non-empty word of ASCII letters, digits and
underscores before the first colon; a line that does not begin like this is malformed and kept byte
by byte.  The body is decoded as text before it is divided into fields, which makes no difference
to the fields: no ill-formed run contains a comma.

A notification is a line with the marker `>` in front, as it comes from the daemon.

## Main definitions

* `Line` — a line by its shape.
* `Line.read` — the shape of a line.
* `Event.ofBody` — the event of a kind and a body.
* `Event.ofLine` — the event of a line.
* `Event.ofNotification` — the event of a line that may have its marker.
-/

namespace TunnelEvents

/-! ### Shape -/

/-- Whether a byte may stand in a tag: an ASCII letter or digit or an underscore. -/
def isTagByte (b : UInt8) : Bool :=
  (0x30 ≤ b && b ≤ 0x39) || (0x41 ≤ b && b ≤ 0x5A) || b == 0x5F || (0x61 ≤ b && b ≤ 0x7A)

/-- Whether bytes are a tag. -/
def isTag (bytes : Bytes) : Bool := !bytes.isEmpty && bytes.all isTagByte

/-- What stands before and after the first colon of a line, if there is one. -/
def cutAtColon? (line : Bytes) : Option (Bytes × Bytes) := cut? 0x3A line

/-- A line by its shape. -/
inductive Line
  /-- A line without a tag. -/
  | malformed (raw : Bytes)
  /-- A line with a tag and a body. -/
  | tagged (tag : String) (body : Bytes)
  deriving DecidableEq, Repr

/-- The shape of a line. -/
def Line.read (line : Bytes) : Line :=
  match cutAtColon? line with
  | some (tag, body) => if isTag tag then .tagged (Utf8.decodeLossy tag) body else .malformed line
  | none => .malformed line

/-! ### Bodies -/

/-- An instant before the first comma and a message after it; a body without a comma says
neither. -/
def Echo.ofBody (body : String) : Echo :=
  match cut? ',' body.toList with
  | some (timestamp, message) => ⟨String.ofList timestamp, String.ofList message⟩
  | none => ⟨"", ""⟩

/-- Five fields. -/
def StateReport.ofBody (body : String) : StateReport :=
  let field := Fields.textAt (Fields.split body)
  ⟨field 0, field 1, field 2, field 3, field 4⟩

/-- Two counters. -/
def ByteCount.ofBody (body : String) : ByteCount :=
  let fields := Fields.split body
  ⟨false, "", Fields.counterAt fields 0, Fields.counterAt fields 1⟩

/-- A client and two counters. -/
def ByteCount.ofClientBody (body : String) : ByteCount :=
  let fields := Fields.split body
  ⟨true, Fields.textAt fields 0, Fields.counterAt fields 1, Fields.counterAt fields 2⟩

namespace Event

/-- The event of a kind and a body. -/
def ofBody (kind : EventKind) (body : String) : Event :=
  match kind with
  | .hold => hold body
  | .echo => echo (Echo.ofBody body)
  | .state => state (StateReport.ofBody body)
  | .byteCount => byteCount (ByteCount.ofBody body)
  | .byteCountClient => byteCount (ByteCount.ofClientBody body)
  | .password => password body
  | .fatal => fatal body

/-- The event of a tag and a body. -/
def ofTagged (tag body : String) : Event :=
  match EventKind.ofTag? tag with
  | some kind => ofBody kind body
  | none => unknown tag body

end Event

/-! ### Lines -/

/-- The event of a line of a given shape. -/
def Line.event : Line → Event
  | malformed raw => .malformed raw
  | tagged tag body => .ofTagged tag (Utf8.decodeLossy body)

/-- The event of a line. -/
def Event.ofLine (line : Bytes) : Event := (Line.read line).event

/-- A line without the marker of a notification; one marker is taken off. -/
def dropMarker : Bytes → Bytes
  | [] => []
  | b :: bs => if b = 0x3E then bs else b :: bs

/-- The event of a line that may have the marker of a notification. -/
def Event.ofNotification (line : Bytes) : Event := Event.ofLine (dropMarker line)

end TunnelEvents
