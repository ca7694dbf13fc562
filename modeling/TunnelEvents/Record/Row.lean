import TunnelEvents.Record.Members

/-!
# Which arrays are rows of an event

An event may also be given by a row: an array of the name of a form and one value for each of its
fields, in the order of the form and without their names.  This lists the forms, and which values
may stand for a field, without a reader.

## Main definitions

* `FieldType`, `Json.HasType` — the types of fields, and the values of each type.
* `RowForm` — the name of a form, and its fields in order.
* `RowForm.IsRow` — an array is a row of a form.
* `RowForm.members` — the object that gives the same values by name.
* `EventForm.rowForm`, `Event.rowForms` — the forms of events.
-/

namespace TunnelEvents

/-- The types of the fields of events. -/
inductive FieldType
  | text
  | truth
  | counter
  | bytes
  deriving DecidableEq, Repr

/-- The values of a type. -/
inductive Json.HasType : FieldType → Json → Prop
  | text {s : String} : HasType .text (.string s)
  | truth {b : Bool} : HasType .truth (.bool b)
  /-- A whole number of 64 bits. -/
  | counter {n : Nat} {v : Json} : n < UInt64.size → IsNatural n v → HasType .counter v
  /-- An array of numbers of 8 bits, or a text. -/
  | bytes {raw : Bytes} {v : Json} : IsBytes raw v → HasType .bytes v

/-- The name of a form, and its fields in order: the name and the type of each. -/
structure RowForm where
  /-- The name of the form. -/
  name : String
  /-- The fields. -/
  fields : List (String × FieldType)
  deriving DecidableEq, Repr

namespace RowForm

/-- An array is a row of a form: the name, and then one value for each field, of its type. -/
inductive IsRow (form : RowForm) : List Json → Prop
  | mk {values : List Json} :
    List.Forall₂ (fun field v => Json.HasType field.2 v) form.fields values →
      IsRow form (.string form.name :: values)

/-- The members of the object that gives values by name. -/
def members (form : RowForm) (values : List Json) : List (String × Json) :=
  ("type", .string form.name) :: (form.fields.map Prod.fst).zip values

end RowForm

/-- The rows of a form of events. -/
def EventForm.rowForm : EventForm → RowForm
  | malformed => ⟨"malformed", [("raw", .bytes)]⟩
  | unknown => ⟨"unknown", [("tag", .text), ("body", .text)]⟩
  | hold => ⟨"hold", [("reason", .text)]⟩
  | echo => ⟨"echo", [("raw_timestamp", .text), ("message", .text)]⟩
  | state => ⟨"state", [("raw_timestamp", .text), ("new_state", .text), ("description", .text),
      ("local_tunnel_addr", .text), ("remote_addr", .text)]⟩
  | byteCount => ⟨"byte_count", [("per_client", .truth), ("client_id", .text),
      ("bytes_in", .counter), ("bytes_out", .counter)]⟩
  | password => ⟨"password", [("message", .text)]⟩
  | fatal => ⟨"fatal", [("message", .text)]⟩

/-- The forms of events. -/
def Event.rowForms : List RowForm := EventForm.all.map EventForm.rowForm

end TunnelEvents
