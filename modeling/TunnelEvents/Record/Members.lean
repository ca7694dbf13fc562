import TunnelEvents.Json.Grammar
import TunnelEvents.Record.Event
import Mathlib.Data.List.Forall2

/-!
# Which objects are records of an event

An object is a record of an event if it names the form of the event and has its fields, each of
them once.  What else it holds, and in which order, does not matter.  This lists, for each form,
the names of the fields and the JSON values that stand for them, without a reader.

## Main definitions

* `Json.IsNatural`, `Json.IsBytes` — a JSON value stands for a number, or for bytes.
* `Json.OnlyMember` — an object has one member of a name, with a given value.
* `Event.recordType`, `Event.recordFields` — the name of the form of an event, and its fields.
* `Event.IsRecord` — the members of an object are a record of an event.
-/

namespace TunnelEvents

namespace Json

/-- A whole number written in digits alone, without sign, fraction and exponent. -/
def IsNatural (n : Nat) (v : Json) : Prop :=
  ∃ digits, v = .number ⟨false, digits, none, none⟩ ∧ Nat.ofDigitChars 10 digits 0 = n

/-- A value that stands for bytes. -/
inductive IsBytes (raw : Bytes) : Json → Prop
  /-- Each byte as a number. -/
  | array {items : List Json} :
    List.Forall₂ (fun v b => IsNatural b.toNat v) items raw → IsBytes raw (.array items)
  /-- A text whose encoding the bytes are. -/
  | string {s : String} : Utf8.encode s = raw → IsBytes raw (.string s)

/-- One member has the name, and it has the value. -/
structure OnlyMember (name : String) (v : Json) (members : List (String × Json)) : Prop where
  /-- The name is that of one member. -/
  count_eq : (members.map Prod.fst).count name = 1
  /-- The name and the value are a member. -/
  mem : (name, v) ∈ members

end Json

namespace Event

/-- The name of the form of an event. -/
def recordType : Event → String
  | malformed _ => "malformed"
  | unknown _ _ => "unknown"
  | hold _ => "hold"
  | echo _ => "echo"
  | state _ => "state"
  | byteCount _ => "byte_count"
  | password _ => "password"
  | fatal _ => "fatal"

/-- The fields of an event in order: the name of each, and which values stand for what the event has
there. -/
def recordFields : Event → List (String × (Json → Prop))
  | malformed raw => [("raw", Json.IsBytes raw)]
  | unknown tag body => [("tag", (· = .string tag)), ("body", (· = .string body))]
  | hold reason => [("reason", (· = .string reason))]
  | echo e => [("raw_timestamp", (· = .string e.rawTimestamp)),
      ("message", (· = .string e.message))]
  | state r => [("raw_timestamp", (· = .string r.rawTimestamp)),
      ("new_state", (· = .string r.stateName)), ("description", (· = .string r.description)),
      ("local_tunnel_addr", (· = .string r.localAddress)),
      ("remote_addr", (· = .string r.remoteAddress))]
  | byteCount c => [("per_client", (· = .bool c.perClient)),
      ("client_id", (· = .string c.clientId)), ("bytes_in", Json.IsNatural c.bytesIn.toNat),
      ("bytes_out", Json.IsNatural c.bytesOut.toNat)]
  | password message => [("message", (· = .string message))]
  | fatal message => [("message", (· = .string message))]

/-- The members of an object are a record of the event. -/
structure IsRecord (e : Event) (members : List (String × Json)) : Prop where
  /-- The form is named once. -/
  type : Json.OnlyMember "type" (.string e.recordType) members
  /-- Each field is there once, and has what the event has. -/
  fields : ∀ f ∈ e.recordFields, ∃ v, Json.OnlyMember f.1 v members ∧ f.2 v

end Event

end TunnelEvents
