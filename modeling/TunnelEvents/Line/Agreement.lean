import TunnelEvents.Line.Canonical

/-!
# Lines that say the same

Reading forgets what an event has no place for: surplus fields, the spelling of a counter, the body
of an echo that has no comma.  Two lines agree if they differ in nothing else.  This is said of
lines and their bodies, field by field, without an event.

## Main definitions

* `Fields.TextsAgree`, `Fields.CountersAgree` — two bodies have the same at a position.
* `Echo.Void` — an echo body that says neither an instant nor a message.
* `EventKind.BodiesAgree` — two bodies of a kind say the same.
* `BodiesAgree` — two bodies after a tag say the same.
* `LinesAgree` — two lines say the same.
-/

namespace TunnelEvents

/-- Between the commas of two bodies stands the same text at position `i`; a missing one is
empty. -/
def Fields.TextsAgree (i : Nat) (a b : String) : Prop :=
  (split a)[i]?.getD "" = (split b)[i]?.getD ""

/-- Between the commas of two bodies stands the same counter at position `i`; a missing one is
0. -/
def Fields.CountersAgree (i : Nat) (a b : String) : Prop :=
  ((split a)[i]?.map counter).getD 0 = ((split b)[i]?.map counter).getD 0

/-- An echo body with no comma, or with nothing but a comma. -/
def Echo.Void (body : String) : Prop := Fields.IsField body ∨ body = ","

/-- Two bodies of a kind say the same. -/
def EventKind.BodiesAgree (k : EventKind) (a b : String) : Prop :=
  match k with
  | .hold => a = b
  | .echo => a = b ∨ (Echo.Void a ∧ Echo.Void b)
  | .state => ∀ i < 5, Fields.TextsAgree i a b
  | .byteCount => ∀ i < 2, Fields.CountersAgree i a b
  | .byteCountClient =>
    Fields.TextsAgree 0 a b ∧ Fields.CountersAgree 1 a b ∧ Fields.CountersAgree 2 a b
  | .password => a = b
  | .fatal => a = b

/-- Two bodies after a tag say the same; a tag of no kind keeps its body as it is. -/
def BodiesAgree (tag a b : String) : Prop :=
  match EventKind.ofTag? tag with
  | some k => k.BodiesAgree a b
  | none => a = b

/-- Two lines say the same: they are one line, or have one tag and bodies whose texts say the
same. -/
def LinesAgree (a b : Bytes) : Prop :=
  a = b ∨ ∃ word bodyA bodyB, Shaped a word bodyA ∧ Shaped b word bodyB ∧
    BodiesAgree word (Utf8.decodeLossy bodyA) (Utf8.decodeLossy bodyB)

/-! ### Decidability -/

instance (i : Nat) (a b : String) : Decidable (Fields.TextsAgree i a b) :=
  inferInstanceAs (Decidable (_ = _))

instance (i : Nat) (a b : String) : Decidable (Fields.CountersAgree i a b) :=
  inferInstanceAs (Decidable (_ = _))

instance (body : String) : Decidable (Echo.Void body) := inferInstanceAs (Decidable (_ ∨ _))

instance (k : EventKind) (a b : String) : Decidable (k.BodiesAgree a b) :=
  match k with
  | .hold => inferInstanceAs (Decidable (a = b))
  | .echo => inferInstanceAs (Decidable (a = b ∨ (Echo.Void a ∧ Echo.Void b)))
  | .state => inferInstanceAs (Decidable (∀ i < 5, Fields.TextsAgree i a b))
  | .byteCount => inferInstanceAs (Decidable (∀ i < 2, Fields.CountersAgree i a b))
  | .byteCountClient => inferInstanceAs (Decidable (_ ∧ _ ∧ _))
  | .password => inferInstanceAs (Decidable (a = b))
  | .fatal => inferInstanceAs (Decidable (a = b))

end TunnelEvents
