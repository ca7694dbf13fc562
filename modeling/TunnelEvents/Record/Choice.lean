import TunnelEvents.ConnectionState
import TunnelEvents.EventKind
import TunnelEvents.Json.Document

/-!
# Kinds and states as JSON

A kind, and a state that is a phase, is written as its name in lower case.  Reading also accepts an
object whose only member has that name and the value `null`.  A state that is no phase is an object
whose only member is `other`, with the name of the state; it stays no phase even if a phase has that
name.

## Main definitions

* `EventKind.toJson`, `EventKind.ofJson?` — kinds as JSON values.
* `ConnectionState.toJson`, `ConnectionState.ofJson?` — states as JSON values.
* `EventKind.render`, `EventKind.read?`, `ConnectionState.render`, `ConnectionState.read?` — the
  same as texts.
-/

namespace TunnelEvents

namespace EventKind

/-- The name of a kind in a record. -/
def recordName : EventKind → String
  | hold => "hold"
  | echo => "echo"
  | state => "state"
  | byteCount => "byte_count"
  | byteCountClient => "byte_count_client"
  | password => "password"
  | fatal => "fatal"

/-- The kind of a name in a record. -/
def ofRecordName? (name : String) : Option EventKind := all.find? fun k => k.recordName = name

@[simp] theorem ofRecordName?_recordName (k : EventKind) :
    ofRecordName? k.recordName = some k := by
  cases k <;> decide

/-- A kind as a JSON value. -/
def toJson (k : EventKind) : Json := .string k.recordName

/-- The kind that a JSON value stands for. -/
def ofJson? (v : Json) : Option EventKind := v.choice?.bind ofRecordName?

/-- A kind as a JSON text. -/
def render (k : EventKind) : String := k.toJson.render

/-- The kind of a JSON text. -/
def read? (text : String) : Option EventKind := (Json.read? text).bind ofJson?

end EventKind

namespace Phase

/-- The name of a phase in a record. -/
def recordName : Phase → String
  | connecting => "connecting"
  | wait => "wait"
  | auth => "auth"
  | authPending => "auth_pending"
  | getConfig => "get_config"
  | assignIp => "assign_ip"
  | addRoutes => "add_routes"
  | connected => "connected"
  | reconnecting => "reconnecting"
  | exiting => "exiting"
  | resolve => "resolve"
  | tcpConnect => "tcp_connect"

/-- The phase of a name in a record. -/
def ofRecordName? (name : String) : Option Phase := all.find? fun p => p.recordName = name

@[simp] theorem ofRecordName?_recordName (p : Phase) :
    ofRecordName? p.recordName = some p := by
  cases p <;> decide

end Phase

namespace ConnectionState

/-- A state as a JSON value. -/
def toJson : ConnectionState → Json
  | phase p => .string p.recordName
  | other name => .object [("other", .string name)]

/-- The state that a JSON value stands for. -/
def ofJson? : Json → Option ConnectionState
  | .object [("other", .string name)] => some (other name)
  | v => (v.choice?.bind Phase.ofRecordName?).map phase

/-- A state as a JSON text. -/
def render (s : ConnectionState) : String := s.toJson.render

/-- The state of a JSON text. -/
def read? (text : String) : Option ConnectionState := (Json.read? text).bind ofJson?

end ConnectionState

end TunnelEvents
