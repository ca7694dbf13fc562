import TunnelEvents.ConnectionState
import TunnelEvents.EventKind
import TunnelEvents.Json.Grammar

/-!
# Which JSON values are records of kinds and states

A kind or a phase is named by a string, or by an object whose only member has that name and the
value `null`.  A state that is no phase is an object whose only member is `other`, and says its name
there.  This lists the names, and the values that a record may be, without a reader.

## Main definitions

* `Json.Names` — a JSON value stands for a name.
* `EventKind.recordNames`, `Phase.recordNames` — the names of kinds and phases.
* `EventKind.IsRecord`, `ConnectionState.IsRecord` — a JSON value is a record of a kind or a state.
* `Json.LosslessCodec` — texts are written and read without loss.
-/

namespace TunnelEvents

namespace Json

/-- A value that stands for a name and nothing else. -/
inductive Names (name : String) : Json → Prop
  /-- The name itself. -/
  | string : Names name (.string name)
  /-- An object with the name as its only member, which is empty. -/
  | object : Names name (.object [(name, .null)])

/-- What is written is read again, so no two things are written alike.  What is read is decided by
the JSON value that a text spells: the values of `a` are read as `a`, and others not at all. -/
structure LosslessCodec {α : Type} (render : α → String) (read? : String → Option α)
    (decode? : Json → Option α) (IsRecord : α → Json → Prop) : Prop where
  read?_render : ∀ a, read? (render a) = some a
  render_injective : ∀ a b, render a = render b → a = b
  decode?_eq_some_iff : ∀ v a, decode? v = some a ↔ IsRecord a v
  read?_eq_some_iff : ∀ text a, read? text = some a ↔ ∃ v, Json.Spells v text ∧ IsRecord a v

end Json

/-- The names of the kinds. -/
def EventKind.recordNames : List (String × EventKind) :=
  [("hold", .hold), ("echo", .echo), ("state", .state), ("byte_count", .byteCount),
    ("byte_count_client", .byteCountClient), ("password", .password), ("fatal", .fatal)]

/-- A value is a record of a kind if it stands for its name. -/
def EventKind.IsRecord (k : EventKind) (v : Json) : Prop :=
  ∃ name, (name, k) ∈ EventKind.recordNames ∧ Json.Names name v

/-- The names of the phases. -/
def Phase.recordNames : List (String × Phase) :=
  [("connecting", .connecting), ("wait", .wait), ("auth", .auth), ("auth_pending", .authPending),
    ("get_config", .getConfig), ("assign_ip", .assignIp), ("add_routes", .addRoutes),
    ("connected", .connected), ("reconnecting", .reconnecting), ("exiting", .exiting),
    ("resolve", .resolve), ("tcp_connect", .tcpConnect)]

/-- The values that are records of a state. -/
inductive ConnectionState.IsRecord : ConnectionState → Json → Prop
  /-- A phase, by its name. -/
  | phase {name : String} {p : Phase} {v : Json} :
    (name, p) ∈ Phase.recordNames → Json.Names name v → IsRecord (.phase p) v
  /-- Any name under `other`, also one that a phase has. -/
  | other {name : String} : IsRecord (.other name) (.object [("other", .string name)])

end TunnelEvents
