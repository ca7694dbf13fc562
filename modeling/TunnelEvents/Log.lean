import TunnelEvents.Line

/-!
# What reading a line logs

Reading a line leaves a trace if something about the line was dropped or not understood.  The trace
tells a tag, a length or numbers of fields, and never a part of a body, which may hold secrets.

## Main definitions

* `LogRecord` — something worth a trace.
* `LogRecord.message` — the trace as a sentence.
* `Line.log` — the traces that a line leaves.
-/

namespace TunnelEvents

/-- Something worth a trace. -/
inductive LogRecord
  /-- A malformed line of the given length in bytes. -/
  | malformed (length : Nat)
  /-- A tag of no kind. -/
  | unknownTag (tag : String)
  /-- More fields than the kind has. -/
  | surplus (kind : EventKind) (got expected : Nat)
  deriving DecidableEq, Repr

/-- How much a record matters. -/
inductive LogLevel
  | error
  | warn
  | info
  | debug
  | trace
  deriving DecidableEq, Repr

/-- The name of a level. -/
def LogLevel.name : LogLevel → String
  | error => "ERROR"
  | warn => "WARN"
  | info => "INFO"
  | debug => "DEBUG"
  | trace => "TRACE"

namespace LogRecord

/-- Lines come from the other end, so no line may flood a log: all records are of the lowest
level. -/
def level : LogRecord → LogLevel
  | malformed _ => .trace
  | unknownTag _ => .trace
  | surplus _ _ _ => .trace

/-- A record as a sentence. -/
def message : LogRecord → String
  | malformed length => "malformed management line (" ++ length.repr ++ " bytes)"
  | unknownTag tag => "unknown management event tag " ++ quoteText tag
  | surplus kind got expected =>
    kind.tag ++ " carried " ++ got.repr ++ " fields, ignoring " ++ (got - expected).repr

@[simp] theorem message_malformed (length : Nat) :
    (malformed length).message
      = "malformed management line (" ++ length.repr ++ " bytes)" := rfl

@[simp] theorem message_unknownTag (tag : String) :
    (unknownTag tag).message = "unknown management event tag " ++ quoteText tag := rfl

@[simp] theorem message_surplus (kind : EventKind) (got expected : Nat) :
    (surplus kind got expected).message
      = kind.tag ++ " carried " ++ got.repr ++ " fields, ignoring " ++ (got - expected).repr := rfl

/-- A record as a line of a log: its level and its sentence. -/
def render (r : LogRecord) : String := r.level.name ++ " " ++ r.message

end LogRecord

/-- The traces that a body of a kind leaves. -/
def EventKind.log (kind : EventKind) (body : String) : List LogRecord :=
  match kind.fieldCount? with
  | some expected =>
    let got := (Fields.split body).length
    if expected < got then [.surplus kind got expected] else []
  | none => []

/-- The traces that a line of a given shape leaves. -/
def Line.log : Line → List LogRecord
  | malformed raw => [.malformed raw.length]
  | tagged tag body =>
    match EventKind.ofTag? tag with
    | some kind => kind.log (Utf8.decodeLossy body)
    | none => [.unknownTag tag]

/-- The traces that reading a line leaves. -/
def logOfLine (line : Bytes) : List LogRecord := (Line.read line).log

/-- The traces that reading a line leaves that may have the marker of a notification. -/
def logOfNotification (line : Bytes) : List LogRecord := logOfLine (dropMarker line)

end TunnelEvents
