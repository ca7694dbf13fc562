import TunnelEvents.Text.Decimal

/-!
# Comma-separated fields

The body of a structured line is a list of fields between commas.  There is no quoting, so a body
always has one field more than it has commas, and an empty body has one empty field.  A line may
carry fewer fields than its tag expects: a missing text field is empty and a missing counter is 0.

## Main definitions

* `cut?` — a list divided at the first separator.
* `Fields.split` — the fields of a body.
* `Fields.textAt` — the field at a position, as text.
* `Fields.counter` — a field read as a 64-bit counter.
* `Fields.counterAt` — the field at a position, as a counter.
-/

namespace TunnelEvents

/-- What stands before and after the first `sep`, if there is one. -/
def cut? {α : Type _} [DecidableEq α] (sep : α) : List α → Option (List α × List α)
  | [] => none
  | x :: xs =>
    if x = sep then some ([], xs) else (cut? sep xs).map fun p => (x :: p.1, p.2)

@[simp] theorem cut?_nil {α : Type _} [DecidableEq α] (sep : α) : cut? sep [] = none := rfl

@[simp] theorem cut?_cons_self {α : Type _} [DecidableEq α] (sep : α) (xs : List α) :
    cut? sep (sep :: xs) = some ([], xs) := by
  simp [cut?]

theorem cut?_cons_of_ne {α : Type _} [DecidableEq α] {sep x : α} (h : x ≠ sep) (xs : List α) :
    cut? sep (x :: xs) = (cut? sep xs).map fun p => (x :: p.1, p.2) := by
  simp [cut?, h]

namespace Fields

/-- The fields of a body, in order. -/
def split (body : String) : List String :=
  (body.toList.splitOn ',').map String.ofList

/-- The field at position `i`, or the empty text past the end. -/
def textAt (fields : List String) (i : Nat) : String :=
  fields.getD i ""

/-- A field as a counter of 64 bits: 0 for anything that is not a numeral or does not fit. -/
def counter (field : String) : UInt64 :=
  match Decimal.unsigned? field.toList with
  | some n => if n < UInt64.size then n.toUInt64 else 0
  | none => 0

/-- The field at position `i` as a counter, or 0 past the end. -/
def counterAt (fields : List String) (i : Nat) : UInt64 :=
  (fields[i]?.map counter).getD 0

end Fields

end TunnelEvents
