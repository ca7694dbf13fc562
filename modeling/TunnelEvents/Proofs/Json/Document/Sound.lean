import TunnelEvents.Proofs.Json.Document
import TunnelEvents.Proofs.Json.Token.Sound

/-!
# What is read spells its value

What a state of the reader holds can be written down again: the open arrays and objects with what
they hold, each entry with the comma after it, and then the value that has been completed.  A step
adds the token that it reads.  So a token sequence that is read to its end is that of the value that
comes out, and a text is read as a value just if it is a document of it.

## Main definitions

* `Document.Frame.tokens`, `Document.State.tokens` — the tokens that led to a state.
* `Document.Holds` — values that fit into a number of open arrays and objects.
* `Document.Reached` — the tokens that have been read led to a state, and what it holds fits.
* `IsClosed` — the text of a value shows where it ends.

## Main results

* `Document.Reached.step` — a step adds its token, and what the state holds still fits.
* `ofTokens?_eq_some_iff` — a token sequence is read as the value that it is of.
* `read?_eq_some_iff` — **a text is read as a value just if it is a document of the value, which is
  not nested too deep and has only numbers within the finite range.**
* `read?_append_iff` — **after a document whose end shows, only white space may follow.**
-/

namespace TunnelEvents.Json

/-! ### Entries and the commas after them -/

/-- The tokens of items, each followed by a comma. -/
def doneItemTokens (items : List Json) : List Token :=
  items.flatMap fun v => v.tokens ++ [.comma]

/-- The tokens of members, each followed by a comma. -/
def doneMemberTokens (members : List (String × Json)) : List Token :=
  members.flatMap fun m => .string m.1 :: .colon :: (m.2.tokens ++ [.comma])

/-- The last item has no comma after it. -/
theorem itemTokens_concat (items : List Json) (v : Json) :
    itemTokens (items ++ [v]) = doneItemTokens items ++ v.tokens := by
  induction items with
  | nil => rfl
  | cons w ws ih =>
    rw [List.cons_append, itemTokens_cons w (by simp), ih]
    simp [doneItemTokens]

/-- The last member has no comma after it. -/
theorem memberTokens_concat (members : List (String × Json)) (name : String) (v : Json) :
    memberTokens (members ++ [(name, v)])
      = doneMemberTokens members ++ .string name :: .colon :: v.tokens := by
  induction members with
  | nil => rfl
  | cons m ms ih =>
    rw [List.cons_append, memberTokens_cons m.1 m.2 (by simp), ih]
    simp [doneMemberTokens]

namespace Document

/-! ### The tokens of a state -/

/-- The tokens of an open array or object up to the value that is being read. -/
def Frame.tokens : Frame → List Token
  | .array items => .openArray :: doneItemTokens items.reverse
  | .object members name =>
    .openObject :: (doneMemberTokens members.reverse ++ [.string name, .colon])

/-- The tokens of the open arrays and objects. -/
def outerTokens (outer : List Frame) : List Token := outer.reverse.flatMap Frame.tokens

@[simp] theorem outerTokens_cons (frame : Frame) (outer : List Frame) :
    outerTokens (frame :: outer) = outerTokens outer ++ frame.tokens := by
  simp [outerTokens]

/-- The tokens that led to a state. -/
def State.tokens : State → List Token
  | .value outer => outerTokens outer
  | .arrayStart outer => outerTokens outer ++ [.openArray]
  | .objectStart outer => outerTokens outer ++ [.openObject]
  | .memberName members outer =>
    outerTokens outer ++ .openObject :: doneMemberTokens members.reverse
  | .colon members name outer =>
    outerTokens outer ++ .openObject :: (doneMemberTokens members.reverse ++ [.string name])
  | .complete v outer => outerTokens outer ++ v.tokens

/-! ### Depth -/

/-- Values that may stand inside of `n` open arrays and objects. -/
structure Holds (n : Nat) (vs : List Json) : Prop where
  le : n ≤ maxDepth
  depth_le : ∀ v ∈ vs, v.depth + n ≤ maxDepth

theorem Holds.nil {n : Nat} (h : n ≤ maxDepth) : Holds n [] :=
  ⟨h, fun _ hv => absurd hv List.not_mem_nil⟩

theorem Holds.cons {n : Nat} {v : Json} {vs : List Json} (hv : v.depth + n ≤ maxDepth)
    (h : Holds n vs) : Holds n (v :: vs) :=
  ⟨h.le, List.forall_mem_cons.mpr ⟨hv, h.depth_le⟩⟩

/-- An array of them may stand one level further out. -/
theorem Holds.depth_array {n : Nat} {items : List Json} (h : Holds (n + 1) items) :
    (Json.array items.reverse).depth + n ≤ maxDepth := by
  have hle := h.le
  have hitems : itemsDepth items.reverse ≤ maxDepth - (n + 1) := by
    refine itemsDepth_le_iff.mpr fun v hv => ?_
    have hdepth := h.depth_le v (List.mem_reverse.mp hv)
    omega
  rw [depth]
  omega

/-- So may an object. -/
theorem Holds.depth_object {n : Nat} {members : List (String × Json)}
    (h : Holds (n + 1) (members.map Prod.snd)) :
    (Json.object members.reverse).depth + n ≤ maxDepth := by
  have hle := h.le
  have hmembers : membersDepth members.reverse ≤ maxDepth - (n + 1) := by
    refine membersDepth_le_iff.mpr fun m hm => ?_
    have hdepth := h.depth_le m.2 (List.mem_map_of_mem (List.mem_reverse.mp hm))
    omega
  rw [depth]
  omega

/-- The values that an open array or object holds. -/
def Frame.values : Frame → List Json
  | .array items => items
  | .object members _ => members.map Prod.snd

/-- What the open arrays and objects hold may stand there. -/
def OuterFits : List Frame → Prop
  | [] => True
  | frame :: outer => Holds (outer.length + 1) frame.values ∧ OuterFits outer

theorem OuterFits.length_le {outer : List Frame} (h : OuterFits outer) :
    outer.length ≤ maxDepth := by
  cases outer with
  | nil => exact Nat.zero_le _
  | cons frame outer => exact h.1.le

/-- What a state holds may stand there. -/
def State.Fits : State → Prop
  | .value outer => OuterFits outer
  | .arrayStart outer => Holds (outer.length + 1) [] ∧ OuterFits outer
  | .objectStart outer => Holds (outer.length + 1) [] ∧ OuterFits outer
  | .memberName members outer =>
    Holds (outer.length + 1) (members.map Prod.snd) ∧ OuterFits outer
  | .colon members _ outer => Holds (outer.length + 1) (members.map Prod.snd) ∧ OuterFits outer
  | .complete v outer => v.depth + outer.length ≤ maxDepth ∧ OuterFits outer

/-! ### Steps -/

/-- The tokens that have been read led to a state, and what it holds may stand there. -/
structure Reached (ts : List Token) (s : State) : Prop where
  tokens_eq : s.tokens = ts
  fits : s.Fits

/-- A value of one token. -/
theorem Reached.scalar {outer : List Frame} {v : Json} {t : Token} (htokens : v.tokens = [t])
    (hdepth : v.depth = 0) (h : OuterFits outer) :
    Reached (outerTokens outer ++ [t]) (.complete v outer) := by
  refine ⟨congrArg _ htokens, ?_, h⟩
  rw [hdepth, Nat.zero_add]
  exact h.length_le

theorem Reached.begin {outer : List Frame} {t : Token} {s : State} (h : OuterFits outer)
    (hbegin : State.begin outer t = some s) : Reached (outerTokens outer ++ [t]) s := by
  cases t with
  | null =>
    cases hbegin
    exact .scalar rfl rfl h
  | bool b =>
    cases hbegin
    exact .scalar rfl rfl h
  | number n =>
    cases hbegin
    exact .scalar rfl rfl h
  | string s =>
    cases hbegin
    exact .scalar rfl rfl h
  | openArray =>
    obtain ⟨hlt, heq⟩ := Option.ite_none_right_eq_some.mp hbegin
    cases heq
    exact ⟨rfl, .nil hlt, h⟩
  | openObject =>
    obtain ⟨hlt, heq⟩ := Option.ite_none_right_eq_some.mp hbegin
    cases heq
    exact ⟨rfl, .nil hlt, h⟩
  | closeArray => cases hbegin
  | closeObject => cases hbegin
  | comma => cases hbegin
  | colon => cases hbegin

theorem Reached.next {v : Json} {outer : List Frame} {t : Token} {s : State}
    (hv : v.depth + outer.length ≤ maxDepth) (h : OuterFits outer)
    (hnext : State.next v outer t = some s) : Reached (outerTokens outer ++ v.tokens ++ [t]) s := by
  -- a comma puts the value behind the entries before it, and a bracket takes up all of them
  unfold State.next at hnext
  split at hnext
  · next items outer =>
    cases hnext
    refine ⟨?_, .cons hv h.1, h.2⟩
    simp [State.tokens, Frame.tokens, doneItemTokens]
  · next items outer =>
    cases hnext
    refine ⟨?_, (Holds.cons hv h.1).depth_array, h.2⟩
    simp [State.tokens, Frame.tokens, tokens, itemTokens_concat]
  · next members name outer =>
    cases hnext
    refine ⟨?_, .cons hv h.1, h.2⟩
    simp [State.tokens, Frame.tokens, doneMemberTokens]
  · next members name outer =>
    cases hnext
    have hmembers : Holds (outer.length + 1) (((name, v) :: members).map Prod.snd) := .cons hv h.1
    refine ⟨?_, hmembers.depth_object, h.2⟩
    simp [State.tokens, Frame.tokens, tokens, memberTokens_concat]
  · cases hnext

/-- A step adds its token, and what the state holds still fits. -/
theorem Reached.step {ts : List Token} {s s' : State} {t : Token} (h : Reached ts s)
    (hstep : s.step t = some s') : Reached (ts ++ [t]) s' := by
  obtain ⟨rfl, hfits⟩ := h
  unfold State.step at hstep
  split at hstep
  · exact .begin hfits hstep
  · next outer =>
    cases hstep
    refine ⟨?_, hfits.1.depth_array, hfits.2⟩
    simp [State.tokens, tokens, itemTokens]
  · next outer _ =>
    have houter : OuterFits (.array [] :: outer) := hfits
    have hreached := Reached.begin houter hstep
    rwa [outerTokens_cons] at hreached
  · next outer =>
    cases hstep
    have hmembers : Holds (outer.length + 1) (([] : List (String × Json)).map Prod.snd) := hfits.1
    refine ⟨?_, hmembers.depth_object, hfits.2⟩
    simp [State.tokens, tokens, memberTokens]
  · cases hstep
    refine ⟨?_, hfits⟩
    simp [State.tokens, doneMemberTokens]
  · cases hstep
    refine ⟨?_, hfits⟩
    simp [State.tokens]
  · cases hstep
    refine ⟨?_, hfits⟩
    simp [State.tokens, Frame.tokens]
  · exact .next hfits.1 hfits.2 hstep
  · cases hstep

/-- So does a whole run. -/
theorem Reached.foldlM {ts us : List Token} {s s' : State} (h : Reached ts s)
    (hrun : us.foldlM State.step s = some s') : Reached (ts ++ us) s' := by
  induction us generalizing ts s with
  | nil =>
    cases hrun
    rwa [List.append_nil]
  | cons u us ih =>
    rw [List.foldlM_cons] at hrun
    obtain ⟨r, hr, hrun⟩ := Option.bind_eq_some_iff.mp hrun
    have hus := ih (h.step hr) hrun
    rwa [List.append_assoc] at hus

end Document

open Document

/-! ### Documents -/

/-- A token sequence is read as the value that it is of. -/
theorem ofTokens?_eq_some_iff {ts : List Token} {v : Json} :
    ofTokens? ts = some v ↔ ts = v.tokens ∧ v.depth ≤ maxDepth := by
  constructor
  · intro h
    obtain ⟨s, hrun, hresult⟩ := Option.bind_eq_some_iff.mp h
    have hreached := Reached.foldlM (s := .value []) ⟨rfl, trivial⟩ hrun
    unfold State.result? at hresult
    split at hresult
    · cases hresult
      exact ⟨hreached.tokens_eq.symm, hreached.fits.1⟩
    · cases hresult
  · rintro ⟨rfl, hdepth⟩
    exact ofTokens?_tokens hdepth

/-- A text is read as a value just if it is a document of the value, and the value is in range. -/
theorem read?_eq_some_iff {text : String} {v : Json} :
    read? text = some v ↔ Spells v text ∧ v.InRange := by
  constructor
  · intro h
    obtain ⟨ts, hts, hv⟩ := Option.bind_eq_some_iff.mp h
    obtain ⟨rfl, hdepth⟩ := ofTokens?_eq_some_iff.mp hv
    obtain ⟨hspelling, hfinite⟩ := reads_of_tokens? hts
    exact ⟨hspelling, hdepth, hfinite⟩
  · rintro ⟨hspells, hrange⟩
    exact read?_of_spells hrange.depth_le hrange.isFinite hspells

/-! ### What may follow a document -/

/-- The text of a value shows where it ends. -/
def IsClosed (v : Json) : Prop := ∀ t ∈ v.tokens.getLast?, t.isBare = false

theorem isClosed_string (s : String) : (Json.string s).IsClosed := by
  intro t ht
  obtain rfl := Option.some.inj ht
  rfl

theorem isClosed_array (items : List Json) : (Json.array items).IsClosed := by
  intro t ht
  rw [tokens, ← List.cons_append, List.getLast?_concat] at ht
  obtain rfl := Option.some.inj ht
  rfl

theorem isClosed_object (members : List (String × Json)) : (Json.object members).IsClosed := by
  intro t ht
  rw [tokens, ← List.cons_append, List.getLast?_concat] at ht
  obtain rfl := Option.some.inj ht
  rfl

/-- After the tokens of a value no token can be read. -/
theorem eq_of_ofTokens?_append {v w : Json} {ts : List Token} (hv : v.depth ≤ maxDepth)
    (h : ofTokens? (v.tokens ++ ts) = some w) : ts = [] ∧ w = v := by
  have hrun := foldlM_tokens v (expects_value []) (by simpa using hv) ts
  rw [ofTokens?, hrun] at h
  cases ts with
  | nil => exact ⟨rfl, (Option.some.inj h).symm⟩
  | cons t ts =>
    have hnext : (State.complete v []).step t = none := by cases t <;> rfl
    rw [List.foldlM_cons, hnext] at h
    cases h

/-- After a document whose end shows, only white space may follow. -/
theorem read?_append_iff {text more : String} {v w : Json} (h : read? text = some v)
    (hclosed : v.IsClosed) :
    read? (text ++ more) = some w ↔ Blank more.toList ∧ w = v := by
  obtain ⟨hspells, hrange⟩ := read?_eq_some_iff.mp h
  have htokens : tokens? (text ++ more).toList = (tokens? more.toList).map (v.tokens ++ ·) := by
    rw [String.toList_append]
    refine Spelling.tokens?_append hspells (separated_tokens v) hrange.isFinite fun t ht hbare => ?_
    rw [hclosed t ht] at hbare
    cases hbare
  constructor
  · intro hread
    rw [read?, htokens] at hread
    obtain ⟨ts, hts, hw⟩ := Option.bind_eq_some_iff.mp hread
    obtain ⟨us, hus, rfl⟩ := Option.map_eq_some_iff.mp hts
    obtain ⟨rfl, rfl⟩ := eq_of_ofTokens?_append hrange.depth_le hw
    cases (reads_of_tokens? hus).spelling with
    | nil hb => exact ⟨hb, rfl⟩
  · rintro ⟨hblank, rfl⟩
    have hmore : tokens? more.toList = some [] :=
      Spelling.tokens?_eq (.nil hblank) trivial fun n hn => absurd hn List.not_mem_nil
    rw [read?, htokens, hmore, Option.map_some, List.append_nil, Option.bind_some,
      ofTokens?_tokens hrange.depth_le]

end TunnelEvents.Json
