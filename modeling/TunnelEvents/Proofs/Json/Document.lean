import TunnelEvents.Json.Document
import TunnelEvents.Proofs.Json.Token

/-!
# Reading the tokens of a value

Where a value is expected, its tokens lead to the state in which that value is complete, and the
arrays and objects around it are as they were.  So values are read from the inside out, and a
document is read as the only value whose tokens it spells.

## Main definitions

* `Document.Expects`, `Document.ExpectsName` — a state in which a value or a member comes next.
* `Json.Plain` — the numbers of a value are plain whole numbers of 64 bits.

## Main results

* `Document.foldlM_tokens` — the tokens of a value complete that value.
* `read?_of_spells` — **a document is read as the value that it spells.**
* `spells_render`, `le_of_mem_render` — the compact text of a value spells it, without control
  characters.
* `read?_render` — a value with plain numbers is read from its compact text.
-/

namespace TunnelEvents.Json

namespace Document

/-- A state in which a value comes next, inside of the open frames `outer`. -/
def Expects (s : State) (outer : List Frame) : Prop :=
  ∀ t, t ≠ .closeArray → s.step t = State.begin outer t

theorem expects_value (outer : List Frame) : Expects (.value outer) outer := fun _ _ => rfl

theorem expects_arrayStart (outer : List Frame) :
    Expects (.arrayStart outer) (.array [] :: outer) := by
  intro t ht
  cases t with
  | closeArray => exact absurd rfl ht
  | _ => rfl

/-- A state in which the name of a member comes next, after the members `done`. -/
def ExpectsName (s : State) (done : List (String × Json)) (outer : List Frame) : Prop :=
  ∀ name, s.step (.string name) = some (.colon done name outer)

theorem expectsName_objectStart (outer : List Frame) : ExpectsName (.objectStart outer) [] outer :=
  fun _ => rfl

theorem expectsName_memberName (done : List (String × Json)) (outer : List Frame) :
    ExpectsName (.memberName done outer) done outer := fun _ => rfl

theorem foldlM_cons_of_step {s s' : State} {t : Token} (h : s.step t = some s') (ts : List Token) :
    (t :: ts).foldlM State.step s = ts.foldlM State.step s' := by
  rw [List.foldlM_cons, h]
  rfl

theorem foldlM_cons_of_begin {s s' : State} {outer : List Frame} {t : Token}
    (hs : Expects s outer) (ht : t ≠ .closeArray) (h : State.begin outer t = some s')
    (ts : List Token) : (t :: ts).foldlM State.step s = ts.foldlM State.step s' :=
  foldlM_cons_of_step ((hs t ht).trans h) ts

mutual

/-- The tokens of a value complete that value. -/
theorem foldlM_tokens (v : Json) {s : State} {outer : List Frame} (hs : Expects s outer)
    (hdepth : outer.length + v.depth ≤ maxDepth) (rest : List Token) :
    (v.tokens ++ rest).foldlM State.step s = rest.foldlM State.step (.complete v outer) := by
  -- the frames around the value are arbitrary, so that it may stand at any depth
  match v with
  | .null => exact foldlM_cons_of_begin hs Token.noConfusion rfl rest
  | .bool b => exact foldlM_cons_of_begin hs Token.noConfusion rfl rest
  | .number n => exact foldlM_cons_of_begin hs Token.noConfusion rfl rest
  | .string s => exact foldlM_cons_of_begin hs Token.noConfusion rfl rest
  | .array items =>
    rw [depth] at hdepth
    have hopen : State.begin outer .openArray = some (.arrayStart outer) := by
      rw [State.begin, if_pos (by omega)]
    rw [tokens, List.cons_append, List.append_assoc,
      foldlM_cons_of_begin hs Token.noConfusion hopen]
    exact foldlM_itemTokens items (expects_arrayStart outer) (fun _ => rfl) (by omega) rest
  | .object members =>
    rw [depth] at hdepth
    have hopen : State.begin outer .openObject = some (.objectStart outer) := by
      rw [State.begin, if_pos (by omega)]
    rw [tokens, List.cons_append, List.append_assoc,
      foldlM_cons_of_begin hs Token.noConfusion hopen]
    exact foldlM_memberTokens members (expectsName_objectStart outer) (fun _ => rfl) (by omega) rest

/-- The items of an array join those before them, and the closing bracket completes the array. -/
theorem foldlM_itemTokens (items : List Json) {s : State} {done : List Json} {outer : List Frame}
    (hs : Expects s (.array done :: outer))
    (hclose : items = [] → s.step .closeArray = some (.complete (.array done.reverse) outer))
    (hdepth : outer.length + 1 + itemsDepth items ≤ maxDepth) (rest : List Token) :
    (itemTokens items ++ .closeArray :: rest).foldlM State.step s
      = rest.foldlM State.step (.complete (.array (done.reverse ++ items)) outer) := by
  match items with
  | [] =>
    rw [itemTokens, List.nil_append, foldlM_cons_of_step (hclose rfl), List.append_nil]
  | [v] =>
    have hv : (Frame.array done :: outer).length + v.depth ≤ maxDepth := by
      simp only [itemsDepth, List.length_cons] at hdepth ⊢
      omega
    rw [itemTokens, foldlM_tokens v hs hv, foldlM_cons_of_step rfl, List.reverse_cons]
  | v :: w :: vs =>
    have hv : (Frame.array done :: outer).length + v.depth ≤ maxDepth := by
      rw [itemsDepth] at hdepth
      rw [List.length_cons]
      omega
    have hvs : outer.length + 1 + itemsDepth (w :: vs) ≤ maxDepth := by
      rw [itemsDepth] at hdepth
      omega
    rw [itemTokens, List.append_assoc, foldlM_tokens v hs hv, List.cons_append,
      foldlM_cons_of_step rfl, foldlM_itemTokens (w :: vs) (expects_value _) nofun hvs,
      List.reverse_cons, List.append_assoc]
    rfl

/-- The members of an object join those before them, and the closing brace completes the object. -/
theorem foldlM_memberTokens (members : List (String × Json)) {s : State}
    {done : List (String × Json)} {outer : List Frame} (hs : ExpectsName s done outer)
    (hclose : members = [] → s.step .closeObject = some (.complete (.object done.reverse) outer))
    (hdepth : outer.length + 1 + membersDepth members ≤ maxDepth) (rest : List Token) :
    (memberTokens members ++ .closeObject :: rest).foldlM State.step s
      = rest.foldlM State.step (.complete (.object (done.reverse ++ members)) outer) := by
  match members with
  | [] =>
    rw [memberTokens, List.nil_append, foldlM_cons_of_step (hclose rfl), List.append_nil]
  | [(name, v)] =>
    have hv : (Frame.object done name :: outer).length + v.depth ≤ maxDepth := by
      simp only [membersDepth, List.length_cons] at hdepth ⊢
      omega
    rw [memberTokens, List.cons_append, List.cons_append, foldlM_cons_of_step (hs name),
      foldlM_cons_of_step rfl, foldlM_tokens v (expects_value _) hv, foldlM_cons_of_step rfl,
      List.reverse_cons]
  | (name, v) :: m :: ms =>
    have hv : (Frame.object done name :: outer).length + v.depth ≤ maxDepth := by
      rw [membersDepth] at hdepth
      rw [List.length_cons]
      omega
    have hms : outer.length + 1 + membersDepth (m :: ms) ≤ maxDepth := by
      rw [membersDepth] at hdepth
      omega
    rw [memberTokens, List.cons_append, List.cons_append, List.append_assoc,
      foldlM_cons_of_step (hs name), foldlM_cons_of_step rfl,
      foldlM_tokens v (expects_value _) hv, List.cons_append, foldlM_cons_of_step rfl,
      foldlM_memberTokens (m :: ms) (expectsName_memberName _ outer) nofun hms,
      List.reverse_cons, List.append_assoc]
    rfl

end

end Document

/-- The tokens of a value are read as that value. -/
theorem ofTokens?_tokens {v : Json} (h : v.depth ≤ Document.maxDepth) :
    ofTokens? v.tokens = some v := by
  have hrun := Document.foldlM_tokens v (Document.expects_value []) (by simpa using h) []
  rw [List.append_nil] at hrun
  rw [ofTokens?, hrun]
  rfl

/-- A document is read as the value that it spells. -/
theorem read?_of_spells {v : Json} {text : String} (hdepth : v.depth ≤ Document.maxDepth)
    (hfinite : ∀ n, .number n ∈ v.tokens → n.isFinite = true) (h : Spells v text) :
    read? text = some v := by
  have htokens := Spelling.tokens?_eq h (separated_tokens v) hfinite
  rw [read?, htokens, Option.bind_some, ofTokens?_tokens hdepth]

/-! ### The compact text -/

@[simp] theorem toList_render (v : Json) : v.render.toList = v.tokens.flatMap Token.spelling := by
  simp [render]

theorem tokenSpelling_spelling {t : Token} (h : ∀ n, t = .number n → n.Valid) :
    TokenSpelling t t.spelling := by
  cases t with
  | number n => exact .number (h n rfl)
  | string s => exact .string (textSpelling_escape s.toList)
  | _ => exact .fixed nofun nofun

theorem spelling_flatMap {ts : List Token} (h : ∀ n, .number n ∈ ts → n.Valid) :
    Spelling ts (ts.flatMap Token.spelling) := by
  induction ts with
  | nil => exact .nil blank_nil
  | cons t ts ih =>
    have ht : TokenSpelling t t.spelling := by
      refine tokenSpelling_spelling fun n hn => h n ?_
      exact hn ▸ List.mem_cons_self
    have hts := ih fun n hn => h n (List.mem_cons_of_mem t hn)
    rw [List.flatMap_cons]
    exact .cons blank_nil ht hts

/-- The compact text of a value spells it. -/
theorem spells_render {v : Json} (h : ∀ n, .number n ∈ v.tokens → n.Valid) : Spells v v.render := by
  rw [Spells, toList_render]
  exact spelling_flatMap h

/-- What stands in the compact text of a token is no control character. -/
theorem le_of_mem_spelling {t : Token} (h : ∀ n, t = .number n → n.Valid) {c : Char}
    (hc : c ∈ t.spelling) : 0x20 ≤ c.toNat := by
  have hfixed : t.spelling.all (fun d => 0x20 ≤ d.toNat) = true → 0x20 ≤ c.toNat :=
    fun hall => of_decide_eq_true (List.all_eq_true.mp hall c hc)
  cases t with
  | number n =>
    have hchar := isNumeralChar_iff.mp (Numeral.isNumeralChar_of_mem_spelling (h n rfl) hc)
    omega
  | string s =>
    simp only [Token.spelling, List.cons_append, List.mem_cons, List.mem_append,
      List.mem_flatMap, List.not_mem_nil, or_false] at hc
    rcases hc with rfl | ⟨d, -, hd⟩ | rfl
    · decide
    · exact StringLiteral.le_of_mem_escape hd
    · decide
  | bool b =>
    cases b with
    | false => exact hfixed rfl
    | true => exact hfixed rfl
  | _ => exact hfixed rfl

/-- What stands in the compact text of a value is no control character. -/
theorem le_of_mem_render {v : Json} (h : ∀ n, .number n ∈ v.tokens → n.Valid) {c : Char}
    (hc : c ∈ v.render.toList) : 0x20 ≤ c.toNat := by
  rw [toList_render, List.mem_flatMap] at hc
  obtain ⟨t, ht, hct⟩ := hc
  exact le_of_mem_spelling (fun n hn => h n (hn ▸ ht)) hct

/-! ### The numbers of a value -/

/-- Between the tokens of the items of an array stand no numbers. -/
theorem number_mem_itemTokens {items : List Json} {n : Numeral} :
    .number n ∈ itemTokens items ↔ ∃ v ∈ items, .number n ∈ v.tokens := by
  induction items with
  | nil => simp [itemTokens]
  | cons v vs ih =>
    cases vs with
    | nil => simp [itemTokens]
    | cons w ws => simp [itemTokens, ih]

/-- Neither do they between those of the values of an object. -/
theorem number_mem_memberTokens {members : List (String × Json)} {n : Numeral} :
    .number n ∈ memberTokens members ↔ ∃ m ∈ members, .number n ∈ m.2.tokens := by
  induction members with
  | nil => simp [memberTokens]
  | cons m ms ih =>
    obtain ⟨name, v⟩ := m
    cases ms with
    | nil => simp [memberTokens]
    | cons m' ms => simp [memberTokens, ih]

theorem number_mem_array {items : List Json} {n : Numeral} :
    .number n ∈ (Json.array items).tokens ↔ ∃ v ∈ items, .number n ∈ v.tokens := by
  rw [← number_mem_itemTokens]
  simp [tokens]

theorem number_mem_object {members : List (String × Json)} {n : Numeral} :
    .number n ∈ (Json.object members).tokens ↔ ∃ m ∈ members, .number n ∈ m.2.tokens := by
  rw [← number_mem_memberTokens]
  simp [tokens]

/-! ### Plain numbers -/

/-- The numbers of a value are plain whole numbers of 64 bits. -/
def Plain (v : Json) : Prop := ∀ n, .number n ∈ v.tokens → ∃ k < UInt64.size, n = .ofNat k

theorem Plain.valid {v : Json} (h : v.Plain) : ∀ n, .number n ∈ v.tokens → n.Valid := by
  intro n hn
  obtain ⟨k, -, rfl⟩ := h n hn
  exact Numeral.valid_ofNat k

theorem Plain.isFinite {v : Json} (h : v.Plain) :
    ∀ n, .number n ∈ v.tokens → n.isFinite = true := by
  intro n hn
  obtain ⟨k, hk, rfl⟩ := h n hn
  exact Numeral.isFinite_ofNat hk

theorem plain_string (s : String) : (Json.string s).Plain := by
  intro n hn
  exact absurd (List.mem_singleton.mp hn) nofun

theorem plain_bool (b : Bool) : (Json.bool b).Plain := by
  intro n hn
  exact absurd (List.mem_singleton.mp hn) nofun

theorem plain_ofNat {k : Nat} (h : k < UInt64.size) : (Json.ofNat k).Plain := by
  intro n hn
  obtain rfl := Token.number.inj (List.mem_singleton.mp hn)
  exact ⟨k, h, rfl⟩

theorem plain_array {items : List Json} (h : ∀ v ∈ items, v.Plain) : (Json.array items).Plain := by
  intro n hn
  obtain ⟨v, hv, hnv⟩ := number_mem_array.mp hn
  exact h v hv n hnv

theorem plain_object {members : List (String × Json)} (h : ∀ m ∈ members, m.2.Plain) :
    (Json.object members).Plain := by
  intro n hn
  obtain ⟨m, hm, hnm⟩ := number_mem_object.mp hn
  exact h m hm n hnm

/-! ### Depth -/

theorem itemsDepth_le_iff {items : List Json} {d : Nat} :
    itemsDepth items ≤ d ↔ ∀ v ∈ items, v.depth ≤ d := by
  induction items with
  | nil => simp [itemsDepth]
  | cons v vs ih => rw [itemsDepth, Nat.max_le, List.forall_mem_cons, ih]

theorem membersDepth_le_iff {members : List (String × Json)} {d : Nat} :
    membersDepth members ≤ d ↔ ∀ m ∈ members, m.2.depth ≤ d := by
  induction members with
  | nil => simp [membersDepth]
  | cons m ms ih => rw [membersDepth, Nat.max_le, List.forall_mem_cons, ih]

/-! ### Round trip -/

/-- A value with plain numbers is read from its compact text. -/
theorem read?_render {v : Json} (hdepth : v.depth ≤ Document.maxDepth) (h : v.Plain) :
    read? v.render = some v :=
  read?_of_spells hdepth h.isFinite (spells_render h.valid)

end TunnelEvents.Json
