import TunnelEvents.Naming

/-!
# Connection states

A state line names the phase that the connection has reached.  Twelve phases are known; any other
name is kept as it is, so that the name of a state is always the name that was read.

## Main definitions

* `Phase` — the phases that are known by name.
* `ConnectionState` — a phase, or a name of none.
* `ConnectionState.name`, `ConnectionState.ofName` — the name of a state and the state of a name.
* `ConnectionState.describe` — a state as a text for a reader.
-/

namespace TunnelEvents

/-- A phase of a connection. -/
inductive Phase
  | connecting
  | wait
  | auth
  | authPending
  | getConfig
  | assignIp
  | addRoutes
  | connected
  | reconnecting
  | exiting
  | resolve
  | tcpConnect
  deriving DecidableEq, Repr

namespace Phase

/-- All phases. -/
def all : List Phase :=
  [connecting, wait, auth, authPending, getConfig, assignIp, addRoutes, connected, reconnecting,
    exiting, resolve, tcpConnect]

theorem mem_all (p : Phase) : p ∈ all := by cases p <;> decide

/-- The name of a phase in a state line. -/
def name : Phase → String
  | connecting => "CONNECTING"
  | wait => "WAIT"
  | auth => "AUTH"
  | authPending => "AUTH_PENDING"
  | getConfig => "GET_CONFIG"
  | assignIp => "ASSIGN_IP"
  | addRoutes => "ADD_ROUTES"
  | connected => "CONNECTED"
  | reconnecting => "RECONNECTING"
  | exiting => "EXITING"
  | resolve => "RESOLVE"
  | tcpConnect => "TCP_CONNECT"

/-- The phase of a name. -/
def ofName? (name : String) : Option Phase := all.find? fun p => p.name = name

@[simp] theorem ofName?_name (p : Phase) : ofName? p.name = some p := by
  cases p <;> decide

theorem ofName?_eq_some_iff {s : String} {p : Phase} : ofName? s = some p ↔ s = p.name :=
  find?_name_eq_some_iff ofName?_name

theorem ofName?_eq_none_iff {s : String} : ofName? s = none ↔ ∀ p : Phase, s ≠ p.name :=
  find?_name_eq_none_iff ofName?_name

end Phase

/-- The state of a connection. -/
inductive ConnectionState
  /-- A phase that is known. -/
  | phase (p : Phase)
  /-- A state that is only known by its name. -/
  | other (name : String)
  deriving DecidableEq, Repr

namespace ConnectionState

/-- The name of a state. -/
def name : ConnectionState → String
  | phase p => p.name
  | other name => name

@[simp] theorem name_phase (p : Phase) : (phase p).name = p.name := rfl

@[simp] theorem name_other (n : String) : (other n).name = n := rfl

/-- A state as a text for a reader. -/
def describe (s : ConnectionState) : String := s.name

/-- The state of a name: the phase of that name if there is one. -/
def ofName (name : String) : ConnectionState :=
  match Phase.ofName? name with
  | some p => phase p
  | none => other name

/-- Whether traffic can flow. -/
def isConnected (s : ConnectionState) : Bool := s = phase .connected

/-- Whether no other state will follow. -/
def isTerminal (s : ConnectionState) : Bool := s = phase .exiting

end ConnectionState

end TunnelEvents
