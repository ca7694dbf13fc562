import TunnelEvents.Proofs.Line.Shape
import TunnelEvents.Record.Choice

/-!
# The name of a state

The state of a name still has the name, so nothing of a line is lost by taking the state that its
field names.  A state is found again under its name, with one exception: a record may give the name
of a phase to a state that is no phase.  Such a state shares its name with the phase, and is neither
connected nor at its end, whatever it is called.

## Main definitions

* `Phase.lineNames`, `Phase.IsLineName` — the names of the phases in state lines.

## Main results

* `ConnectionState.ofName_eq_phase_iff`, `ConnectionState.ofName_eq_other_iff` — the state of a
  name.
* `ConnectionState.name_eq_name_iff` — which states share a name.
* `ConnectionState.ofName_lossless` — **a state is told by its name, and no name is lost.**
-/

namespace TunnelEvents

/-! ### Names of phases -/

namespace Phase

/-- The names of the phases in state lines. -/
def lineNames : List (String × Phase) :=
  [("CONNECTING", .connecting), ("WAIT", .wait), ("AUTH", .auth), ("AUTH_PENDING", .authPending),
    ("GET_CONFIG", .getConfig), ("ASSIGN_IP", .assignIp), ("ADD_ROUTES", .addRoutes),
    ("CONNECTED", .connected), ("RECONNECTING", .reconnecting), ("EXITING", .exiting),
    ("RESOLVE", .resolve), ("TCP_CONNECT", .tcpConnect)]

/-- A phase has the name in state lines. -/
def IsLineName (n : String) : Prop := n ∈ lineNames.map Prod.fst

instance (n : String) : Decidable (IsLineName n) := inferInstanceAs (Decidable (_ ∈ _))

theorem mem_lineNames (p : Phase) : (p.name, p) ∈ lineNames := by
  cases p <;> decide

theorem mem_lineNames_iff {n : String} {p : Phase} : (n, p) ∈ lineNames ↔ n = p.name :=
  mem_table_iff (by decide) mem_lineNames

theorem isLineName_iff {n : String} : IsLineName n ↔ ∃ p : Phase, n = p.name := by
  simp only [IsLineName, List.mem_map, Prod.exists, exists_and_right, exists_eq_right,
    mem_lineNames_iff]

end Phase

/-! ### States of names -/

namespace ConnectionState

variable {s n : String} {p : Phase} {x y : ConnectionState}

theorem ofName_eq_phase_iff : ofName s = phase p ↔ s = p.name := by
  rw [← Phase.ofName?_eq_some_iff]
  unfold ofName
  cases Phase.ofName? s with
  | some q => simp
  | none => simp

/-- Only a name of no phase is kept as it is. -/
theorem ofName_eq_other_iff : ofName s = other n ↔ s = n ∧ ¬ Phase.IsLineName s := by
  rw [Phase.isLineName_iff, not_exists, ← Phase.ofName?_eq_none_iff]
  unfold ofName
  cases Phase.ofName? s with
  | some q => simp
  | none => simp

@[simp] theorem ofName_name_phase (p : Phase) : ofName p.name = phase p :=
  ofName_eq_phase_iff.mpr rfl

/-- The state of a name has the name. -/
@[simp] theorem name_ofName (s : String) : (ofName s).name = s := by
  cases h : ofName s with
  | phase p => exact (ofName_eq_phase_iff.mp h).symm
  | other n => exact (ofName_eq_other_iff.mp h).1.symm

@[simp] theorem describe_eq_name (x : ConnectionState) : x.describe = x.name := rfl

/-- A state is that of its name, or is only known by its name. -/
theorem eq_ofName_or_eq_other (x : ConnectionState) : x = ofName x.name ∨ x = other x.name := by
  cases x with
  | phase p => exact .inl (ofName_name_phase p).symm
  | other n => exact .inr rfl

/-- A state is found again under its name unless it is no phase and has the name of one. -/
theorem ofName_name_eq_iff : ofName x.name = x ↔ ∀ n, Phase.IsLineName n → x ≠ other n := by
  cases x with
  | phase p => simp
  | other n =>
    rw [name_other, ofName_eq_other_iff]
    constructor
    · rintro ⟨-, hn⟩ m hm h
      obtain rfl : n = m := other.inj h
      exact hn hm
    · intro h
      exact ⟨rfl, fun hn => h n hn rfl⟩

/-- Two states share a name exactly if they are the same, or one is the state of the name and the
other is only known by it. -/
theorem name_eq_name_iff : x.name = y.name ↔
    x = y ∨ ∃ n, (x = other n ∧ y = ofName n) ∨ (x = ofName n ∧ y = other n) := by
  constructor
  · intro h
    -- either state is that of the common name, or is only known by it
    rcases eq_ofName_or_eq_other x with hx | hx
    · rcases eq_ofName_or_eq_other y with hy | hy
      · left
        rw [hx, hy, h]
      · exact .inr ⟨y.name, .inr ⟨h ▸ hx, hy⟩⟩
    · rcases eq_ofName_or_eq_other y with hy | hy
      · exact .inr ⟨x.name, .inl ⟨hx, h ▸ hy⟩⟩
      · left
        rw [hx, hy, h]
  · rintro (rfl | ⟨n, ⟨rfl, rfl⟩ | ⟨rfl, rfl⟩⟩)
    · rfl
    · simp
    · simp

/-! ### What a state means -/

theorem isConnected_iff : x.isConnected = true ↔ x = phase .connected := by
  simp [isConnected]

theorem isTerminal_iff : x.isTerminal = true ↔ x = phase .exiting := by
  simp [isTerminal]

end ConnectionState

/-! ### States of lines -/

/-- The state of a report has the name that the report gives. -/
@[simp] theorem StateReport.name_state (r : StateReport) : r.state.name = r.stateName :=
  ConnectionState.name_ofName r.stateName

/-- A line with the tag of a change of state reports one. -/
theorem Event.exists_ofLine_eq_state {line body : Bytes} (h : Shaped line "STATE" body) :
    ∃ r, Event.ofLine line = .state r :=
  ⟨_, (Event.ofLine_of_shaped h).trans (Event.ofTagged_tag .state _)⟩

/-- The state of a name has the name and is told by it, and is a phase exactly if a phase has the
name.  A state is found again under its name unless it is no phase and has the name of one, and two
different states share a name only if one of them is such a state.  The state of a name is
connected, or at its end, exactly if the name says so, and a state that is no phase is never either.
So a line that reports a change of state has a state with the name that it reports. -/
theorem ConnectionState.ofName_lossless :
    (∀ s, (ofName s).name = s ∧ (ofName s).describe = s) ∧
    (∀ s p, ofName s = phase p ↔ (s, p) ∈ Phase.lineNames) ∧
    (∀ s, (∃ n, ofName s = other n) ↔ ¬ Phase.IsLineName s) ∧
    (∀ x, ofName x.name = x ↔ ∀ n, Phase.IsLineName n → x ≠ other n) ∧
    (∀ x y, x.name = y.name ↔
      x = y ∨ ∃ n, (x = other n ∧ y = ofName n) ∨ (x = ofName n ∧ y = other n)) ∧
    (∀ s, ((ofName s).isConnected = true ↔ s = "CONNECTED") ∧
      ((ofName s).isTerminal = true ↔ s = "EXITING")) ∧
    (∀ n, (other n).isConnected = false ∧ (other n).isTerminal = false) ∧
    ∀ line body, Shaped line "STATE" body → ∃ r, Event.ofLine line = .state r ∧
      r.state.name = r.stateName ∧ r.state.describe = r.stateName := by
  refine ⟨fun s => ?_, fun s p => ?_, fun s => ?_, fun x => ofName_name_eq_iff,
    fun x y => name_eq_name_iff, fun s => ⟨?_, ?_⟩, fun n => ⟨rfl, rfl⟩, fun line body h => ?_⟩
  · simp
  · rw [ofName_eq_phase_iff, Phase.mem_lineNames_iff]
  · simp [ofName_eq_other_iff]
  · rw [isConnected_iff, ofName_eq_phase_iff, Phase.name]
  · rw [isTerminal_iff, ofName_eq_phase_iff, Phase.name]
  · obtain ⟨r, hr⟩ := Event.exists_ofLine_eq_state h
    exact ⟨r, hr, by simp⟩

/-- A record may give the name of a phase to a state that is no phase, and the state is then not
found again.  The name of a phase in lower case is that of none, also where an ill-formed field
follows it. -/
theorem ConnectionState.ofName_lossless_impostor :
    (∃ x, ConnectionState.read? "\x7b\"other\":\"CONNECTED\"\x7d" = some x ∧
      x.name = (phase .connected).name ∧ ofName x.name ≠ x ∧ x.isConnected = false) ∧
    ∃ body, Shaped (Utf8.encode "STATE:" ++ body) "STATE" body ∧
      ∃ r, Event.ofLine (Utf8.encode "STATE:" ++ body) = .state r ∧ r.stateName = "connected" ∧
        r.state.name = "connected" ∧ r.state.isConnected = false := by
  obtain ⟨-, -, -, hfound, hshared, -, hother, hlines⟩ := ConnectionState.ofName_lossless
  have hname : Phase.IsLineName "CONNECTED" := by decide
  constructor
  · refine ⟨other "CONNECTED", by decide, ?_, ?_, (hother _).1⟩
    · exact (hshared _ _).mpr (.inr ⟨"CONNECTED", .inl ⟨rfl, by decide⟩⟩)
    · intro h
      exact (hfound _).mp h _ hname rfl
  · have hshaped := shaped_tag_append .state (Utf8.encode "1,connected," ++ [0xFF])
    have hread : Event.ofLine (Utf8.encode "STATE:" ++ (Utf8.encode "1,connected," ++ [0xFF]))
        = .state ⟨"1", "connected", "\uFFFD", "", ""⟩ := by decide
    obtain ⟨r, hr, hstate, -⟩ := hlines _ _ hshaped
    obtain rfl := Event.state.inj (hread.symm.trans hr)
    exact ⟨_, hshaped, _, hread, rfl, hstate, by decide⟩

end TunnelEvents
