import TunnelEvents.Proofs.Json.Document.Sound

/-!
# The value of a document

A value shows where it ends once it has begun: the tokens of two values, with anything after them,
are the same only if the values are.  So a text is a document of one value among those that can be
read, and a document of a value that is nested too deep or has numbers beyond the finite range is
not taken for a document of another one.

## Main results

* `tokens_append_inj` — the tokens of a value show which value it is and where it ends.
* `read?_eq_some_iff_of_spells` — **a document of a value is read as that value or not at all.**
* `inRange_array_iff`, `inRange_object_iff` — an array or an object can be read if its entries may
  stand in one.
-/

namespace TunnelEvents.Json

/-! ### Tokens and values -/

/-- What follows an item of an array, up to the end of the array and beyond. -/
def afterItem (items : List Json) (rest : List Token) : List Token :=
  match items with
  | [] => .closeArray :: rest
  | _ => .comma :: (itemTokens items ++ .closeArray :: rest)

/-- What follows a member of an object, up to the end of the object and beyond. -/
def afterMember (members : List (String × Json)) (rest : List Token) : List Token :=
  match members with
  | [] => .closeObject :: rest
  | _ => .comma :: (memberTokens members ++ .closeObject :: rest)

theorem itemTokens_append_eq (v : Json) (items : List Json) (rest : List Token) :
    itemTokens (v :: items) ++ .closeArray :: rest = v.tokens ++ afterItem items rest := by
  cases items with
  | nil => rfl
  | cons w ws =>
    rw [itemTokens, List.append_assoc]
    rfl

theorem memberTokens_append_eq (name : String) (v : Json) (members : List (String × Json))
    (rest : List Token) :
    memberTokens ((name, v) :: members) ++ .closeObject :: rest
      = .string name :: .colon :: (v.tokens ++ afterMember members rest) := by
  cases members with
  | nil => rfl
  | cons m ms =>
    rw [memberTokens, List.cons_append, List.cons_append, List.append_assoc]
    rfl

/-- No value begins with a closing bracket. -/
theorem tokens_append_ne (v : Json) (rest ts : List Token) :
    v.tokens ++ rest ≠ .closeArray :: ts := by
  cases v <;> simp [tokens]

mutual

/-- The tokens of a value show which value it is and where it ends. -/
theorem tokens_append_inj (v w : Json) {r s : List Token} (h : v.tokens ++ r = w.tokens ++ s) :
    v = w ∧ r = s := by
  -- the first token tells the values apart, up to what an array or an object holds
  match v with
  | .null => cases w <;> simp_all [tokens]
  | .bool b => cases w <;> simp_all [tokens]
  | .number n => cases w <;> simp_all [tokens]
  | .string t => cases w <;> simp_all [tokens]
  | .array items =>
    cases w with
    | array items' =>
      simp only [tokens, List.cons_append, List.append_assoc, List.nil_append, List.cons.injEq,
        true_and] at h
      obtain ⟨rfl, rfl⟩ := itemTokens_append_inj items items' h
      exact ⟨rfl, rfl⟩
    | _ => simp [tokens] at h
  | .object members =>
    cases w with
    | object members' =>
      simp only [tokens, List.cons_append, List.append_assoc, List.nil_append, List.cons.injEq,
        true_and] at h
      obtain ⟨rfl, rfl⟩ := memberTokens_append_inj members members' h
      exact ⟨rfl, rfl⟩
    | _ => simp [tokens] at h

/-- The items of an array end at its closing bracket. -/
theorem itemTokens_append_inj (items items' : List Json) {r s : List Token}
    (h : itemTokens items ++ .closeArray :: r = itemTokens items' ++ .closeArray :: s) :
    items = items' ∧ r = s := by
  match items, items' with
  | [], [] => exact ⟨rfl, (List.cons.inj h).2⟩
  | [], w :: ws =>
    rw [itemTokens_append_eq] at h
    exact absurd h.symm (tokens_append_ne w _ _)
  | v :: vs, [] =>
    rw [itemTokens_append_eq] at h
    exact absurd h (tokens_append_ne v _ _)
  | v :: vs, w :: ws =>
    rw [itemTokens_append_eq, itemTokens_append_eq] at h
    obtain ⟨rfl, hafter⟩ := tokens_append_inj v w h
    match vs, ws with
    | [], [] => exact ⟨rfl, (List.cons.inj hafter).2⟩
    | [], _ :: _ => cases (List.cons.inj hafter).1
    | _ :: _, [] => cases (List.cons.inj hafter).1
    | v' :: vs, w' :: ws =>
      obtain ⟨heq, hrest⟩ := itemTokens_append_inj (v' :: vs) (w' :: ws) (List.cons.inj hafter).2
      exact ⟨congrArg _ heq, hrest⟩

/-- The members of an object end at its closing brace. -/
theorem memberTokens_append_inj (members members' : List (String × Json)) {r s : List Token}
    (h : memberTokens members ++ .closeObject :: r = memberTokens members' ++ .closeObject :: s) :
    members = members' ∧ r = s := by
  match members, members' with
  | [], [] => exact ⟨rfl, (List.cons.inj h).2⟩
  | [], (name, w) :: ms =>
    rw [memberTokens_append_eq] at h
    cases (List.cons.inj h).1
  | (name, v) :: ms, [] =>
    rw [memberTokens_append_eq] at h
    cases (List.cons.inj h).1
  | (name, v) :: ms, (name', w) :: ms' =>
    rw [memberTokens_append_eq, memberTokens_append_eq] at h
    obtain rfl := Token.string.inj (List.cons.inj h).1
    obtain ⟨rfl, hafter⟩ := tokens_append_inj v w (List.cons.inj (List.cons.inj h).2).2
    match ms, ms' with
    | [], [] => exact ⟨rfl, (List.cons.inj hafter).2⟩
    | [], _ :: _ => cases (List.cons.inj hafter).1
    | _ :: _, [] => cases (List.cons.inj hafter).1
    | m :: ms, m' :: ms' =>
      obtain ⟨heq, hrest⟩ := memberTokens_append_inj (m :: ms) (m' :: ms') (List.cons.inj hafter).2
      exact ⟨congrArg _ heq, hrest⟩

end

/-! ### Documents -/

/-- A document of a value is read as no other value, and as that value if it is in range. -/
theorem read?_eq_some_iff_of_spells {v w : Json} {text : String} (h : Spells v text) :
    read? text = some w ↔ w = v ∧ v.InRange := by
  rw [read?_eq_some_iff]
  constructor
  · rintro ⟨hspells, hrange⟩
    have hcut := hspells.tokens?_eq (separated_tokens w) hrange.isFinite
    have htokens := h.eq_of_tokens? (separated_tokens v) hcut
    obtain ⟨rfl, -⟩ := tokens_append_inj w v (r := []) (s := []) (by rw [htokens])
    exact ⟨rfl, hrange⟩
  · rintro ⟨rfl, hrange⟩
    exact ⟨h, hrange⟩

/-! ### Arrays and objects in range -/

/-- A value may stand in an array or an object that can be read. -/
structure EntryInRange (v : Json) : Prop where
  depth_lt : v.depth < Document.maxDepth
  isFinite : ∀ n, .number n ∈ v.tokens → n.isFinite = true

/-- What holds of the depth and the numbers of a value with entries settles its range. -/
theorem inRange_iff_of_entries {v : Json} {entries : List Json}
    (hdepth : ∀ d, v.depth ≤ d + 1 ↔ ∀ w ∈ entries, w.depth ≤ d)
    (hnumber : ∀ n, .number n ∈ v.tokens ↔ ∃ w ∈ entries, .number n ∈ w.tokens) :
    v.InRange ↔ ∀ w ∈ entries, w.EntryInRange := by
  have hmax : v.depth ≤ Document.maxDepth ↔ ∀ w ∈ entries, w.depth < Document.maxDepth := by
    simp only [Document.maxDepth, hdepth 126, Nat.lt_succ_iff]
  constructor
  · rintro ⟨hle, hfinite⟩ w hw
    exact ⟨hmax.mp hle w hw, fun n hn => hfinite n ((hnumber n).mpr ⟨w, hw, hn⟩)⟩
  · intro h
    refine ⟨hmax.mpr fun w hw => (h w hw).depth_lt, fun n hn => ?_⟩
    obtain ⟨w, hw, hnw⟩ := (hnumber n).mp hn
    exact (h w hw).isFinite n hnw

theorem inRange_array_iff {items : List Json} :
    (Json.array items).InRange ↔ ∀ v ∈ items, v.EntryInRange := by
  refine inRange_iff_of_entries (fun d => ?_) fun n => number_mem_array
  rw [depth, Nat.add_le_add_iff_right, itemsDepth_le_iff]

theorem inRange_object_iff {members : List (String × Json)} :
    (Json.object members).InRange ↔ ∀ m ∈ members, m.2.EntryInRange := by
  rw [← List.forall_mem_map (f := Prod.snd) (P := EntryInRange)]
  refine inRange_iff_of_entries (fun d => ?_) fun n => ?_
  · rw [depth, Nat.add_le_add_iff_right, membersDepth_le_iff, List.forall_mem_map]
  · rw [number_mem_object]
    constructor
    · rintro ⟨m, hm, hn⟩
      exact ⟨m.2, List.mem_map_of_mem hm, hn⟩
    · rintro ⟨w, hw, hn⟩
      obtain ⟨m, hm, rfl⟩ := List.mem_map.mp hw
      exact ⟨m, hm, hn⟩

end TunnelEvents.Json
