import TunnelEvents.Line.Shape

/-!
# Canonical lines

Many lines can say the same event, and some events can be said by none: a field that ends at a comma
cannot hold one.  The canonical line of an event has just the fields that the event has, and writes
counters in their shortest form.

## Main definitions

* `Fields.join` — fields with commas between them.
* `Event.canonicalBody`, `Event.canonicalLine` — the canonical body and line of an event.
* `Event.Sayable` — some line says the event.
-/

namespace TunnelEvents

namespace Fields

/-- Fields with commas between them. -/
def join (fields : List String) : String :=
  String.ofList ([','].intercalate (fields.map String.toList))

/-- Whether a text can be a field: it has no comma. -/
def IsField (s : String) : Prop := ',' ∉ s.toList

instance (s : String) : Decidable (IsField s) := by
  unfold IsField
  infer_instance

/-- Splitting undoes joining. -/
theorem split_join {fields : List String} (h : ∀ f ∈ fields, IsField f) (hne : fields ≠ []) :
    split (join fields) = fields := by
  have hcomma : ∀ l ∈ fields.map String.toList, ',' ∉ l := by
    intro l hl
    obtain ⟨f, hf, rfl⟩ := List.mem_map.mp hl
    exact h f hf
  rw [split, join, String.toList_ofList, List.splitOn_intercalate ',' hcomma (by simpa using hne),
    List.map_map]
  exact (List.map_congr_left fun f _ => String.ofList_toList).trans (List.map_id fields)

/-- Joining undoes splitting. -/
theorem join_split (body : String) : join (split body) = body := by
  have hmap : (split body).map String.toList = body.toList.splitOn ',' := by
    rw [split, List.map_map]
    exact (List.map_congr_left fun l _ => String.toList_ofList).trans (List.map_id _)
  rw [join, hmap, List.intercalate_splitOn, String.ofList_toList]

end Fields

namespace Event

/-- The body of the canonical line of an event with a tag. -/
def canonicalBody : Event → String
  | malformed _ => ""
  | unknown _ body => body
  | hold reason => reason
  | echo e => Fields.join [e.rawTimestamp, e.message]
  | state r =>
    Fields.join [r.rawTimestamp, r.stateName, r.description, r.localAddress, r.remoteAddress]
  | byteCount c =>
    let counters := [c.bytesIn.toNat.repr, c.bytesOut.toNat.repr]
    Fields.join (if c.perClient then c.clientId :: counters else counters)
  | password message => message
  | fatal message => message

/-- The canonical line of an event. -/
def canonicalLine (e : Event) : Bytes :=
  match e with
  | malformed raw => raw
  | e => Utf8.encode ((e.tag?.getD "") ++ ":" ++ e.canonicalBody)

/-- Some line says the event. -/
def Sayable : Event → Prop
  | malformed raw => ∀ word body, ¬ Shaped raw word body
  | unknown tag _ => IsWord tag ∧ ∀ k : EventKind, tag ≠ k.tag
  | hold _ => True
  | echo e => Fields.IsField e.rawTimestamp
  | state r => ∀ f ∈ [r.rawTimestamp, r.stateName, r.description, r.localAddress, r.remoteAddress],
      Fields.IsField f
  | byteCount c => if c.perClient then Fields.IsField c.clientId else c.clientId = ""
  | password _ => True
  | fatal _ => True

end Event

end TunnelEvents
