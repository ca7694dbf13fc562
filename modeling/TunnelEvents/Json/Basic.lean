import TunnelEvents.Json.Token

/-!
# JSON values

A JSON value is kept as it was written: the members of an object stay in order and repetitions
stay, for it is left to the reader of a record what a repeated member means.

A value has exactly one sequence of tokens.  The compact text of a value is the shortest text of
each of them, with nothing between.

## Main definitions

* `Json` — a JSON value.
* `Json.tokens` — the tokens of a value.
* `Json.render` — the compact text of a value.
* `Json.depth` — how deep arrays and objects are nested in a value.
-/

namespace TunnelEvents

/-- A JSON value. -/
inductive Json
  | null
  | bool (b : Bool)
  | number (n : Json.Numeral)
  | string (s : String)
  | array (items : List Json)
  | object (members : List (String × Json))
  deriving Repr, Inhabited

namespace Json

/-! ### Tokens -/

mutual

/-- The tokens of a value. -/
def tokens : Json → List Token
  | .null => [.null]
  | .bool b => [.bool b]
  | .number n => [.number n]
  | .string s => [.string s]
  | .array items => .openArray :: (itemTokens items ++ [.closeArray])
  | .object members => .openObject :: (memberTokens members ++ [.closeObject])

/-- The tokens of the items of an array, with commas between them. -/
def itemTokens : List Json → List Token
  | [] => []
  | [v] => v.tokens
  | v :: w :: vs => v.tokens ++ .comma :: itemTokens (w :: vs)

/-- The tokens of the members of an object, with commas between them. -/
def memberTokens : List (String × Json) → List Token
  | [] => []
  | [(name, v)] => .string name :: .colon :: v.tokens
  | (name, v) :: m :: ms => .string name :: .colon :: (v.tokens ++ .comma :: memberTokens (m :: ms))

end

theorem itemTokens_cons (v : Json) {items : List Json} (h : items ≠ []) :
    itemTokens (v :: items) = v.tokens ++ .comma :: itemTokens items := by
  obtain ⟨w, ws, rfl⟩ := List.exists_cons_of_ne_nil h
  rw [itemTokens]

theorem memberTokens_cons (name : String) (v : Json) {members : List (String × Json)}
    (h : members ≠ []) :
    memberTokens ((name, v) :: members)
      = .string name :: .colon :: (v.tokens ++ .comma :: memberTokens members) := by
  obtain ⟨m, ms, rfl⟩ := List.exists_cons_of_ne_nil h
  rw [memberTokens]

/-- The compact text of a value. -/
def render (v : Json) : String := String.ofList (v.tokens.flatMap Token.spelling)

/-! ### Nesting -/

mutual

/-- How deep arrays and objects are nested in a value; other values have depth 0. -/
def depth : Json → Nat
  | .array items => itemsDepth items + 1
  | .object members => membersDepth members + 1
  | _ => 0

/-- The greatest depth among the items of an array. -/
def itemsDepth : List Json → Nat
  | [] => 0
  | v :: vs => max v.depth (itemsDepth vs)

/-- The greatest depth among the values of an object. -/
def membersDepth : List (String × Json) → Nat
  | [] => 0
  | (_, v) :: ms => max v.depth (membersDepth ms)

end

/-! ### Views -/

/-- The text of a string. -/
def string? : Json → Option String
  | .string s => some s
  | _ => none

/-- The value of a boolean. -/
def bool? : Json → Option Bool
  | .bool b => some b
  | _ => none

/-- The value of a plain whole number below `bound`. -/
def naturalBelow? (bound : Nat) : Json → Option Nat
  | .number n => n.natural?.filter (· < bound)
  | _ => none

/-- The value of a plain whole number of 64 bits. -/
def uint64? (v : Json) : Option UInt64 := (v.naturalBelow? UInt64.size).map Nat.toUInt64

/-- The value of a plain whole number of 8 bits. -/
def uint8? (v : Json) : Option UInt8 := (v.naturalBelow? UInt8.size).map Nat.toUInt8

/-- The value of the only member of a name; `none` if the name is missing or repeated. -/
def only? (name : String) (members : List (String × Json)) : Option Json :=
  match members.filter fun m => m.1 = name with
  | [m] => some m.2
  | _ => none

/-- The name of a choice without content: a string, or an object whose only member is that name with
the value `null`. -/
def choice? : Json → Option String
  | .string name => some name
  | .object [(name, .null)] => some name
  | _ => none

/-- The number of a natural number. -/
def ofNat (n : Nat) : Json := .number (.ofNat n)

end Json

end TunnelEvents
