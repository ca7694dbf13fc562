import TunnelEvents.Json.Basic

/-!
# JSON documents

A document is a text that spells one value and nothing else.  Its tokens are read from left to
right with a stack of the arrays and objects that are still open; nothing is looked at twice.
Arrays and objects may be nested to a fixed depth, and a document that goes deeper is refused.

## Main definitions

* `Document.Frame` — an array or object that is still open.
* `Document.State` — what has been read, and what may come next.
* `Document.State.step` — read a token.
* `Json.ofTokens?` — the value of a token sequence.
* `Json.read?` — the value of a document.
* `Json.InRange` — a value whose documents are not refused.
-/

namespace TunnelEvents.Json

namespace Document

/-- How deep arrays and objects may be nested. -/
def maxDepth : Nat := 127

/-- An array or object that is still open, with what it holds already, the last entry first. -/
inductive Frame
  /-- An array, whose next item is being read. -/
  | array (items : List Json)
  /-- An object, where the value of the member `name` is being read. -/
  | object (members : List (String × Json)) (name : String)
  deriving Repr

/-- What has been read of a document.  The frames are the open arrays and objects around the place
that has been reached, the innermost first. -/
inductive State
  /-- A value comes next. -/
  | value (outer : List Frame)
  /-- An array has just been opened. -/
  | arrayStart (outer : List Frame)
  /-- An object has just been opened. -/
  | objectStart (outer : List Frame)
  /-- The name of a member comes next. -/
  | memberName (members : List (String × Json)) (outer : List Frame)
  /-- The colon after the name of a member comes next. -/
  | colon (members : List (String × Json)) (name : String) (outer : List Frame)
  /-- A value is complete. -/
  | complete (v : Json) (outer : List Frame)
  deriving Repr

/-- Read the first token of a value. -/
def State.begin (outer : List Frame) : Token → Option State
  | .null => some (.complete .null outer)
  | .bool b => some (.complete (.bool b) outer)
  | .number n => some (.complete (.number n) outer)
  | .string s => some (.complete (.string s) outer)
  | .openArray => if outer.length < maxDepth then some (.arrayStart outer) else none
  | .openObject => if outer.length < maxDepth then some (.objectStart outer) else none
  | _ => none

/-- Read the token after a complete value: it goes on with, or closes, the innermost frame. -/
def State.next (v : Json) : List Frame → Token → Option State
  | .array items :: outer, .comma => some (.value (.array (v :: items) :: outer))
  | .array items :: outer, .closeArray => some (.complete (.array (v :: items).reverse) outer)
  | .object members name :: outer, .comma => some (.memberName ((name, v) :: members) outer)
  | .object members name :: outer, .closeObject =>
    some (.complete (.object ((name, v) :: members).reverse) outer)
  | _, _ => none

/-- Read a token. -/
def State.step : State → Token → Option State
  | .value outer, t => State.begin outer t
  | .arrayStart outer, .closeArray => some (.complete (.array []) outer)
  | .arrayStart outer, t => State.begin (.array [] :: outer) t
  | .objectStart outer, .closeObject => some (.complete (.object []) outer)
  | .objectStart outer, .string name => some (.colon [] name outer)
  | .memberName members outer, .string name => some (.colon members name outer)
  | .colon members name outer, .colon => some (.value (.object members name :: outer))
  | .complete v outer, t => State.next v outer t
  | _, _ => none

/-- The value that has been read, if a document may end here. -/
def State.result? : State → Option Json
  | .complete v [] => some v
  | _ => none

end Document

/-- The value of a token sequence. -/
def ofTokens? (ts : List Token) : Option Json :=
  (ts.foldlM Document.State.step (.value [])).bind Document.State.result?

/-- The value of a document. -/
def read? (text : String) : Option Json := (tokens? text.toList).bind ofTokens?

/-- A value is not nested too deep, and its numbers are within the finite range. -/
structure InRange (v : Json) : Prop where
  depth_le : v.depth ≤ Document.maxDepth
  isFinite : ∀ n, .number n ∈ v.tokens → n.isFinite = true

end TunnelEvents.Json
