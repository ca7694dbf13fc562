import TunnelEvents.ConnectionState
import TunnelEvents.EventKind
import TunnelEvents.Time.Instant

/-!
# Events

An event is what a management line says.  Text fields keep the text that was sent, also where it
denotes something else: an instant or a state is derived from its field when it is asked for, and
no field is refused.

## Main definitions

* `Echo`, `StateReport`, `ByteCount` — the contents of events with several fields.
* `Event` — an event.
* `Event.kind?`, `Event.tag?`, `Event.body?` — what all events have in common.
* `Event.describe` — an event as a line for a reader.
-/

namespace TunnelEvents

/-! ### Contents -/

/-- A message and when it was received. -/
structure Echo where
  /-- The field of the instant. -/
  rawTimestamp : String
  /-- The message. -/
  message : String
  deriving DecidableEq, Repr

/-- A change of the connection's state. -/
structure StateReport where
  /-- The field of the instant. -/
  rawTimestamp : String
  /-- The name of the state. -/
  stateName : String
  /-- What led to the state. -/
  description : String
  /-- The address of this end within the tunnel. -/
  localAddress : String
  /-- The address of the other end. -/
  remoteAddress : String
  deriving DecidableEq, Repr

/-- Traffic counters. -/
structure ByteCount where
  /-- Whether they belong to one client of a server. -/
  perClient : Bool
  /-- Which client they belong to. -/
  clientId : String
  /-- The bytes received. -/
  bytesIn : UInt64
  /-- The bytes sent. -/
  bytesOut : UInt64
  deriving DecidableEq, Repr

/-- The instant of a message, if its field denotes one. -/
def Echo.instant? (e : Echo) : Option Instant := Instant.read? e.rawTimestamp

/-- The instant of a change of state, if its field denotes one. -/
def StateReport.instant? (r : StateReport) : Option Instant := Instant.read? r.rawTimestamp

/-- The state that was reached. -/
def StateReport.state (r : StateReport) : ConnectionState := ConnectionState.ofName r.stateName

/-- The kind of traffic counters. -/
def ByteCount.kind (c : ByteCount) : EventKind :=
  if c.perClient then .byteCountClient else .byteCount

/-! ### Events -/

/-- What a management line says. -/
inductive Event
  /-- The line has no tag. -/
  | malformed (raw : Bytes)
  /-- The line has a tag of no kind. -/
  | unknown (tag body : String)
  /-- The daemon waits for the given reason. -/
  | hold (reason : String)
  /-- A message was sent through the daemon. -/
  | echo (content : Echo)
  /-- The connection's state changed. -/
  | state (content : StateReport)
  /-- Traffic was counted. -/
  | byteCount (content : ByteCount)
  /-- Credentials are asked for or judged. -/
  | password (message : String)
  /-- The daemon is about to stop. -/
  | fatal (message : String)
  deriving DecidableEq, Repr

namespace Event

/-- The kind of an event; a line without a known tag has none. -/
def kind? : Event → Option EventKind
  | malformed _ => none
  | unknown _ _ => none
  | hold _ => some .hold
  | echo _ => some .echo
  | state _ => some .state
  | byteCount c => some c.kind
  | password _ => some .password
  | fatal _ => some .fatal

/-- The tag of the line; only a malformed line has none. -/
def tag? : Event → Option String
  | unknown tag _ => some tag
  | e => e.kind?.map EventKind.tag

/-- The body of the line, for the events that keep it undivided. -/
def body? : Event → Option String
  | unknown _ body => some body
  | hold reason => some reason
  | password message => some message
  | fatal message => some message
  | _ => none

/-- Whether the line has no tag. -/
def isMalformed : Event → Bool
  | malformed _ => true
  | _ => false

end Event

/-! ### Descriptions -/

/-- A message, with the field of its instant. -/
def Echo.describe (e : Echo) : String := "Echo [" ++ e.rawTimestamp ++ "]: " ++ e.message

/-- A change of state, with the addresses if there is one. -/
def StateReport.describe (r : StateReport) : String :=
  "State " ++ r.stateName ++ ": " ++ r.description ++
    if r.localAddress = "" ∧ r.remoteAddress = "" then ""
    else " (" ++ r.localAddress ++ " <-> " ++ r.remoteAddress ++ ")"

/-- Traffic counters, with the client they belong to. -/
def ByteCount.describe (c : ByteCount) : String :=
  (if c.perClient then "ByteCount client " ++ c.clientId ++ ": " else "ByteCount: ")
    ++ c.bytesIn.toNat.repr ++ " in, " ++ c.bytesOut.toNat.repr ++ " out"

/-- An event as a line for a reader. -/
def Event.describe : Event → String
  | malformed raw => "Malformed Event " ++ quoteBytes raw
  | unknown tag body => tag ++ ": " ++ body
  | hold reason => "Hold: " ++ reason
  | echo e => e.describe
  | state r => r.describe
  | byteCount c => c.describe
  | password message => "Password: " ++ message
  | fatal message => "Fatal: " ++ message

@[simp] theorem Event.describe_malformed (raw : Bytes) :
    (malformed raw).describe = "Malformed Event " ++ quoteBytes raw := rfl

end TunnelEvents
