import TunnelEvents.Event
import TunnelEvents.Json.Document

/-!
# Events as JSON

An event is written as an object: the member `type` names the form of the event, and the fields of
that form follow in a fixed order.  Reading takes the members in any order and passes over members
of other names; `type` and each field must be there once.  It also takes an array of the name of the
form and the values of its fields, in order.

What is read need not be something that a line can say: an unknown tag may be that of a kind.

## Main definitions

* `EventForm` — the forms of events.
* `EventForm.fieldNames` — the names of the fields of a form.
* `EventForm.build?` — the event of a form and the values of its fields.
* `Event.toJson`, `Event.ofJson?` — events as JSON values.
* `Event.render`, `Event.read?` — events as JSON texts.
-/

namespace TunnelEvents

/-- The forms of events, one for each way to make an event. -/
inductive EventForm
  | malformed
  | unknown
  | hold
  | echo
  | state
  | byteCount
  | password
  | fatal
  deriving DecidableEq, Repr

/-- The bytes that a JSON value stands for: an array of them, or a text in UTF-8. -/
def bytes? : Json → Option Bytes
  | .array items => items.mapM Json.uint8?
  | .string s => some (Utf8.encode s)
  | _ => none

namespace EventForm

/-- All forms. -/
def all : List EventForm :=
  [malformed, unknown, hold, echo, state, byteCount, password, fatal]

theorem mem_all (f : EventForm) : f ∈ all := by cases f <;> decide

/-- The name of a form. -/
def name : EventForm → String
  | malformed => "malformed"
  | unknown => "unknown"
  | hold => "hold"
  | echo => "echo"
  | state => "state"
  | byteCount => "byte_count"
  | password => "password"
  | fatal => "fatal"

/-- The form of a name. -/
def ofName? (name : String) : Option EventForm := all.find? fun f => f.name = name

@[simp] theorem ofName?_name (f : EventForm) : ofName? f.name = some f := by
  cases f <;> decide

/-- The form that a JSON value names. -/
def ofJson? (v : Json) : Option EventForm := v.string?.bind ofName?

/-- The names of the fields of a form, in order. -/
def fieldNames : EventForm → List String
  | malformed => ["raw"]
  | unknown => ["tag", "body"]
  | hold => ["reason"]
  | echo => ["raw_timestamp", "message"]
  | state => ["raw_timestamp", "new_state", "description", "local_tunnel_addr", "remote_addr"]
  | byteCount => ["per_client", "client_id", "bytes_in", "bytes_out"]
  | password => ["message"]
  | fatal => ["message"]

/-- The event of a form and the values of its fields, in order. -/
def build? : EventForm → List Json → Option Event
  | malformed, [raw] => (bytes? raw).map .malformed
  | unknown, [tag, body] => do return .unknown (← tag.string?) (← body.string?)
  | hold, [reason] => reason.string?.map .hold
  | echo, [timestamp, message] => do return .echo ⟨← timestamp.string?, ← message.string?⟩
  | state, [timestamp, stateName, description, here, there] => do
    return .state ⟨← timestamp.string?, ← stateName.string?, ← description.string?, ← here.string?,
      ← there.string?⟩
  | byteCount, [perClient, clientId, bytesIn, bytesOut] => do
    return .byteCount ⟨← perClient.bool?, ← clientId.string?, ← bytesIn.uint64?,
      ← bytesOut.uint64?⟩
  | password, [message] => message.string?.map .password
  | fatal, [message] => message.string?.map .fatal
  | _, _ => none

/-- The event of a form and the members of an object. -/
def ofMembers? (form : EventForm) (members : List (String × Json)) : Option Event :=
  (form.fieldNames.mapM fun name => Json.only? name members).bind form.build?

end EventForm

namespace Event

/-- The form of an event. -/
def form : Event → EventForm
  | malformed _ => .malformed
  | unknown _ _ => .unknown
  | hold _ => .hold
  | echo _ => .echo
  | state _ => .state
  | byteCount _ => .byteCount
  | password _ => .password
  | fatal _ => .fatal

/-- The values of the fields of an event, in order. -/
def fieldValues : Event → List Json
  | malformed raw => [.array (raw.map fun b => .ofNat b.toNat)]
  | unknown tag body => [.string tag, .string body]
  | hold reason => [.string reason]
  | echo e => [.string e.rawTimestamp, .string e.message]
  | state r => [.string r.rawTimestamp, .string r.stateName, .string r.description,
      .string r.localAddress, .string r.remoteAddress]
  | byteCount c => [.bool c.perClient, .string c.clientId, .ofNat c.bytesIn.toNat,
      .ofNat c.bytesOut.toNat]
  | password message => [.string message]
  | fatal message => [.string message]

/-- An event as a JSON value. -/
def toJson (e : Event) : Json :=
  .object (("type", .string e.form.name) :: e.form.fieldNames.zip e.fieldValues)

/-- The event that a JSON value stands for. -/
def ofJson? : Json → Option Event
  | .object members => do
    let form ← (Json.only? "type" members).bind EventForm.ofJson?
    form.ofMembers? members
  | .array (name :: values) => do
    let form ← EventForm.ofJson? name
    form.build? values
  | _ => none

/-- An event as a JSON text. -/
def render (e : Event) : String := e.toJson.render

/-- The event of a JSON text. -/
def read? (text : String) : Option Event := (Json.read? text).bind ofJson?

end Event

end TunnelEvents
