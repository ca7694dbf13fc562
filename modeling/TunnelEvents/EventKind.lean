import TunnelEvents.Naming
import TunnelEvents.Text.Quoted

/-!
# Event kinds

A daemon marks what a management line is about by a tag in front of it.  Seven tags are known, and
each stands for one kind of event.

## Main definitions

* `EventKind` — the kinds that a tag can stand for.
* `EventKind.tag`, `EventKind.ofTag?` — the tag of a kind and the kind of a tag.
* `EventKind.parse` — the kind of a tag, or the tag that was refused.
* `EventKind.fieldCount?` — how many fields the body of a kind is divided into.
-/

namespace TunnelEvents

/-- What a line with a known tag is about. -/
inductive EventKind
  /-- The daemon waits until it is released. -/
  | hold
  /-- A message that was sent through the daemon. -/
  | echo
  /-- A change of the connection's state. -/
  | state
  /-- Traffic counters. -/
  | byteCount
  /-- Traffic counters of one client of a server. -/
  | byteCountClient
  /-- A question for credentials, or their verdict. -/
  | password
  /-- The daemon is about to stop. -/
  | fatal
  deriving DecidableEq, Repr

/-- A text that is the tag of no kind. -/
structure UnknownTag where
  /-- The text. -/
  tag : String
  deriving DecidableEq, Repr

/-- The refusal of a tag as a sentence. -/
def UnknownTag.message (e : UnknownTag) : String :=
  "unrecognised management event tag: " ++ quoteText e.tag

theorem UnknownTag.message_eq (e : UnknownTag) :
    e.message = "unrecognised management event tag: " ++ quoteText e.tag := rfl

namespace EventKind

/-- All kinds, in their usual order. -/
def all : List EventKind := [hold, echo, state, byteCount, byteCountClient, password, fatal]

theorem mem_all (k : EventKind) : k ∈ all := by cases k <;> decide

/-- The tag of a kind. -/
def tag : EventKind → String
  | hold => "HOLD"
  | echo => "ECHO"
  | state => "STATE"
  | byteCount => "BYTECOUNT"
  | byteCountClient => "BYTECOUNT_CLI"
  | password => "PASSWORD"
  | fatal => "FATAL"

/-- The kind of a tag; upper and lower case differ. -/
def ofTag? (tag : String) : Option EventKind := all.find? fun k => k.tag = tag

@[simp] theorem ofTag?_tag (k : EventKind) : ofTag? k.tag = some k := by
  cases k <;> decide

theorem ofTag?_eq_some_iff {t : String} {k : EventKind} : ofTag? t = some k ↔ t = k.tag :=
  find?_name_eq_some_iff ofTag?_tag

theorem ofTag?_eq_none_iff {t : String} : ofTag? t = none ↔ ∀ k : EventKind, t ≠ k.tag :=
  find?_name_eq_none_iff ofTag?_tag

/-- The kind of a tag, or the refusal of a text that is no tag. -/
def parse (tag : String) : Except UnknownTag EventKind :=
  match ofTag? tag with
  | some k => .ok k
  | none => .error ⟨tag⟩

/-- How many fields the body of a kind is divided into, if it is divided at every comma. -/
def fieldCount? : EventKind → Option Nat
  | state => some 5
  | byteCount => some 2
  | byteCountClient => some 3
  | _ => none

end EventKind

end TunnelEvents
