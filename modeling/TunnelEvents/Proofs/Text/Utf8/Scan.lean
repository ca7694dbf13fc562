import TunnelEvents.Proofs.Text.Utf8.Encoding

/-!
# What the UTF-8 scanner does

A pending sequence is determined by the bytes read so far, and these can be listed: a lead byte of
two, three or four bytes, followed by bytes within their ranges.  From that list one learns what a
step can do.  It completes a character whose encoding is exactly the bytes read, or reads one more
byte of a sequence, or gives up a run that holds no ASCII byte and reads its byte afresh.

## Main definitions

* `Utf8.Begun` — the pending sequences that a scan reaches.
* `Utf8.Live` — the states that a scan reaches.
* `Utf8.Segment.bytes` — the bytes of a segment.

## Main results

* `start_cases`, `Begun.resume_cases` — what a step can do.
* `flatMap_bytes_segments` — **a scan cuts a byte sequence without loss.**
-/

namespace TunnelEvents.Utf8

/-! ### The states of a scan -/

/-- The pending sequences that a scan reaches, by the bytes read. -/
inductive Begun : Pending → Prop
  /-- One byte of two. -/
  | two {b : UInt8} : 0xC2 ≤ b.toNat → b.toNat ≤ 0xDF → Begun ⟨[b], b.toNat - 0xC0, 0, 0x80, 0xBF⟩
  /-- One byte of three. -/
  | three {b : UInt8} : 0xE0 ≤ b.toNat → b.toNat ≤ 0xEF →
    Begun ⟨[b], b.toNat - 0xE0, 1, (secondRange b).1, (secondRange b).2⟩
  /-- Two bytes of three. -/
  | threeSecond {b c : UInt8} : 0xE0 ≤ b.toNat → b.toNat ≤ 0xEF → IsSecond b c →
    Begun ⟨[b, c], (b.toNat - 0xE0) * 64 + (c.toNat - 0x80), 0, 0x80, 0xBF⟩
  /-- One byte of four. -/
  | four {b : UInt8} : 0xF0 ≤ b.toNat → b.toNat ≤ 0xF4 →
    Begun ⟨[b], b.toNat - 0xF0, 2, (secondRange b).1, (secondRange b).2⟩
  /-- Two bytes of four. -/
  | fourSecond {b c : UInt8} : 0xF0 ≤ b.toNat → b.toNat ≤ 0xF4 → IsSecond b c →
    Begun ⟨[b, c], (b.toNat - 0xF0) * 64 + (c.toNat - 0x80), 1, 0x80, 0xBF⟩
  /-- Three bytes of four. -/
  | fourThird {b c d : UInt8} : 0xF0 ≤ b.toNat → b.toNat ≤ 0xF4 → IsSecond b c →
    IsContinuation d →
    Begun ⟨[b, c, d], ((b.toNat - 0xF0) * 64 + (c.toNat - 0x80)) * 64 + (d.toNat - 0x80), 0,
      0x80, 0xBF⟩

/-- A state that a scan reaches. -/
def Live (state : Option Pending) : Prop := ∀ p ∈ state, Begun p

theorem live_none : Live none := by
  intro p hp
  cases hp

theorem Begun.live {p : Pending} (h : Begun p) : Live (some p) := by
  intro q hq
  rw [Option.mem_some] at hq
  exact hq ▸ h

/-- What a pending sequence waits for is a continuation byte. -/
theorem Begun.isContinuation {p : Pending} (h : Begun p) {b : UInt8} (hl : p.least ≤ b)
    (hg : b ≤ p.greatest) : IsContinuation b := by
  cases h with
  | two => exact ⟨hl, hg⟩
  | three => exact (show IsSecond _ b from ⟨hl, hg⟩).isContinuation
  | threeSecond => exact ⟨hl, hg⟩
  | four => exact (show IsSecond _ b from ⟨hl, hg⟩).isContinuation
  | fourSecond => exact ⟨hl, hg⟩
  | fourThird => exact ⟨hl, hg⟩

/-- No byte of a pending sequence is an ASCII character. -/
theorem Begun.le_of_mem_read {p : Pending} (h : Begun p) : ∀ b ∈ p.read, 0x80 ≤ b.toNat := by
  cases h with
  | two hb =>
    rw [List.forall_mem_singleton]
    omega
  | three hb =>
    rw [List.forall_mem_singleton]
    omega
  | threeSecond hb _ hc =>
    rw [isSecond_iff] at hc
    rw [List.forall_mem_cons, List.forall_mem_singleton]
    omega
  | four hb =>
    rw [List.forall_mem_singleton]
    omega
  | fourSecond hb _ hc =>
    rw [isSecond_iff] at hc
    rw [List.forall_mem_cons, List.forall_mem_singleton]
    omega
  | fourThird hb _ hc hd =>
    rw [isSecond_iff] at hc
    rw [isContinuation_iff] at hd
    rw [List.forall_mem_cons, List.forall_mem_cons, List.forall_mem_singleton]
    omega

/-! ### Reading where nothing is pending -/

theorem start_of_lt {b : UInt8} (h : b.toNat < 0x80) :
    start b = ([.scalar (Char.ofNat b.toNat)], none) := by
  unfold start
  dsimp only
  rw [if_pos h]

theorem start_two {b : UInt8} (h : 0xC2 ≤ b.toNat) (h' : b.toNat ≤ 0xDF) :
    start b = ([], some ⟨[b], b.toNat - 0xC0, 0, 0x80, 0xBF⟩) := by
  unfold start
  dsimp only
  rw [if_neg (by omega), if_neg (by omega), if_pos (by omega)]

theorem start_three {b : UInt8} (h : 0xE0 ≤ b.toNat) (h' : b.toNat ≤ 0xEF) :
    start b = ([], some ⟨[b], b.toNat - 0xE0, 1, (secondRange b).1, (secondRange b).2⟩) := by
  unfold start secondRange
  dsimp only
  rw [if_neg (by omega), if_neg (by omega), if_neg (by omega)]
  -- E0 and ED have branches of their own
  by_cases h0 : b.toNat = 0xE0
  · rw [if_pos h0, if_pos h0, h0]
  · rw [if_neg h0, if_neg h0]
    by_cases hd : b.toNat = 0xED
    · rw [if_pos hd, if_pos hd, hd]
    · rw [if_neg hd, if_neg hd, if_pos (by omega), if_neg (by omega), if_neg (by omega)]

theorem start_four {b : UInt8} (h : 0xF0 ≤ b.toNat) (h' : b.toNat ≤ 0xF4) :
    start b = ([], some ⟨[b], b.toNat - 0xF0, 2, (secondRange b).1, (secondRange b).2⟩) := by
  unfold start secondRange
  dsimp only
  rw [if_neg (by omega), if_neg (by omega), if_neg (by omega), if_neg (by omega),
    if_neg (by omega), if_neg (by omega)]
  -- F0 and F4 have branches of their own
  by_cases h0 : b.toNat = 0xF0
  · rw [if_pos h0, if_neg (by omega), if_neg (by omega), if_pos h0, h0]
  · rw [if_neg h0]
    by_cases h4 : b.toNat = 0xF4
    · rw [if_neg (by omega), if_pos h4, if_neg (by omega), if_neg (by omega), if_neg h0,
        if_pos h4, h4]
    · rw [if_pos (by omega), if_neg (by omega), if_neg (by omega), if_neg h0, if_neg h4]

theorem start_illFormed {b : UInt8} (h : 0x80 ≤ b.toNat)
    (h' : b.toNat < 0xC2 ∨ 0xF4 < b.toNat) : start b = ([.illFormed [b]], none) := by
  unfold start
  dsimp only
  rw [if_neg (by omega)]
  by_cases h2 : b.toNat < 0xC2
  · rw [if_pos h2]
  · rw [if_neg h2, if_neg (by omega), if_neg (by omega), if_neg (by omega), if_neg (by omega),
      if_neg (by omega), if_neg (by omega), if_neg (by omega)]

/-- What reading a byte does where nothing is pending: it is an ASCII character, or an ill-formed
run, or begins a sequence. -/
theorem start_cases (b : UInt8) :
    (∃ c, start b = ([.scalar c], none) ∧ String.utf8EncodeChar c = [b]) ∨
      (start b = ([.illFormed [b]], none) ∧ 0x80 ≤ b.toNat) ∨
      ∃ p, start b = ([], some p) ∧ Begun p ∧ p.read = [b] := by
  by_cases h1 : b.toNat < 0x80
  · exact .inl ⟨_, start_of_lt h1, (CharBytes.one h1 rfl).encodeChar_ofNat⟩
  · by_cases h2 : b.toNat < 0xC2 ∨ 0xF4 < b.toNat
    · exact .inr (.inl ⟨start_illFormed (by omega) h2, by omega⟩)
    · refine .inr (.inr ?_)
      by_cases h3 : b.toNat ≤ 0xDF
      · exact ⟨_, start_two (by omega) h3, .two (by omega) h3, rfl⟩
      · by_cases h4 : b.toNat ≤ 0xEF
        · exact ⟨_, start_three (by omega) h4, .three (by omega) h4, rfl⟩
        · exact ⟨_, start_four (by omega) (by omega), .four (by omega) (by omega), rfl⟩

/-! ### Reading where a sequence is pending -/

theorem Pending.resume_of_not_mem {p : Pending} {b : UInt8}
    (h : ¬ (p.least ≤ b ∧ b ≤ p.greatest)) :
    p.resume b = (.illFormed p.read :: (start b).1, (start b).2) := by
  unfold Pending.resume
  rw [if_neg h]

theorem Pending.resume_last {read : Bytes} {value : Nat} {least greatest b : UInt8}
    (h : least ≤ b ∧ b ≤ greatest) :
    (⟨read, value, 0, least, greatest⟩ : Pending).resume b
      = ([.scalar (Char.ofNat (value * 64 + (b.toNat - 0x80)))], none) := by
  unfold Pending.resume
  rw [if_pos h]

theorem Pending.resume_more {read : Bytes} {value more : Nat} {least greatest b : UInt8}
    (h : least ≤ b ∧ b ≤ greatest) :
    (⟨read, value, more + 1, least, greatest⟩ : Pending).resume b
      = ([], some ⟨read ++ [b], value * 64 + (b.toNat - 0x80), more, 0x80, 0xBF⟩) := by
  unfold Pending.resume
  rw [if_pos h]

/-- What reading a byte does where a sequence is pending: it completes the character that the bytes
encode, or leaves the sequence pending, or ends it as an ill-formed run. -/
theorem Begun.resume_cases {p : Pending} (h : Begun p) (b : UInt8) :
    (∃ c, p.resume b = ([.scalar c], none) ∧ String.utf8EncodeChar c = p.read ++ [b]) ∨
      (∃ q, p.resume b = ([], some q) ∧ Begun q ∧ q.read = p.read ++ [b]) ∨
      p.resume b = (.illFormed p.read :: (start b).1, (start b).2) := by
  by_cases hb : p.least ≤ b ∧ b ≤ p.greatest
  · -- how many bytes the lead byte asked for decides whether the character is complete
    cases h with
    | two h1 h2 =>
      exact .inl ⟨_, Pending.resume_last hb, (CharBytes.two h1 h2 hb rfl).encodeChar_ofNat⟩
    | three h1 h2 =>
      exact .inr (.inl ⟨_, Pending.resume_more hb, .threeSecond h1 h2 hb, rfl⟩)
    | threeSecond h1 h2 hc =>
      exact .inl ⟨_, Pending.resume_last hb, (CharBytes.three h1 h2 hc hb rfl).encodeChar_ofNat⟩
    | four h1 h2 =>
      exact .inr (.inl ⟨_, Pending.resume_more hb, .fourSecond h1 h2 hb, rfl⟩)
    | fourSecond h1 h2 hc =>
      exact .inr (.inl ⟨_, Pending.resume_more hb, .fourThird h1 h2 hc hb, rfl⟩)
    | fourThird h1 h2 hc hd =>
      exact .inl
        ⟨_, Pending.resume_last hb, (CharBytes.four h1 h2 hc hd hb rfl).encodeChar_ofNat⟩
  · exact .inr (.inr (Pending.resume_of_not_mem hb))

/-! ### Steps of a scan -/

theorem segments_cons_of_lt {b : UInt8} (h : b.toNat < 0x80) (bs : Bytes) :
    segments (b :: bs) = .scalar (Char.ofNat b.toNat) :: segments bs := by
  rw [segments, segmentsFrom_cons, step_none, start_of_lt h]
  rfl

theorem segments_cons_of_begin {b : UInt8} {p : Pending} (h : start b = ([], some p))
    (bs : Bytes) : segments (b :: bs) = segmentsFrom (some p) bs := by
  rw [segments, segmentsFrom_cons, step_none, h]
  rfl

theorem segmentsFrom_cons_of_more {p q : Pending} {b : UInt8} (h : p.resume b = ([], some q))
    (bs : Bytes) : segmentsFrom (some p) (b :: bs) = segmentsFrom (some q) bs := by
  rw [segmentsFrom_cons, step_some, h]
  rfl

theorem segmentsFrom_cons_of_last {p : Pending} {b : UInt8} {c : Char}
    (h : p.resume b = ([.scalar c], none)) (bs : Bytes) :
    segmentsFrom (some p) (b :: bs) = .scalar c :: segments bs := by
  rw [segmentsFrom_cons, step_some, h]
  rfl

/-- Starting leads to a state that a scan reaches. -/
theorem live_start (b : UInt8) : Live (start b).2 := by
  rcases start_cases b with ⟨c, h, -⟩ | ⟨h, -⟩ | ⟨p, h, hp, -⟩
  · rw [h]
    exact live_none
  · rw [h]
    exact live_none
  · rw [h]
    exact hp.live

/-- A step leads from a state that a scan reaches to another. -/
theorem Live.step {state : Option Pending} (h : Live state) (b : UInt8) :
    Live (step state b).2 := by
  cases state with
  | none => exact live_start b
  | some p =>
    rw [step_some]
    rcases (h p rfl).resume_cases b with ⟨c, hc, -⟩ | ⟨q, hq, hbegun, -⟩ | hr
    · rw [hc]
      exact live_none
    · rw [hq]
      exact hbegun.live
    · rw [hr]
      exact live_start b

/-! ### Nothing is lost -/

/-- The bytes of a segment. -/
def Segment.bytes : Segment → Bytes
  | .scalar c => String.utf8EncodeChar c
  | .illFormed bytes => bytes

@[simp] theorem Segment.bytes_scalar (c : Char) :
    (Segment.scalar c).bytes = String.utf8EncodeChar c := rfl

@[simp] theorem Segment.bytes_illFormed (bytes : Bytes) :
    (Segment.illFormed bytes).bytes = bytes := rfl

/-- The bytes that a state has read and not given out. -/
def unread : Option Pending → Bytes
  | none => []
  | some p => p.read

@[simp] theorem unread_none : unread none = [] := rfl

@[simp] theorem unread_some (p : Pending) : unread (some p) = p.read := rfl

theorem flatMap_bytes_start (b : UInt8) :
    (start b).1.flatMap Segment.bytes ++ unread (start b).2 = [b] := by
  rcases start_cases b with ⟨c, h, hc⟩ | ⟨h, -⟩ | ⟨p, h, -, hp⟩
  · rw [h]
    simpa using hc
  · rw [h]
    simp
  · rw [h]
    simpa using hp

/-- A step gives out bytes in the order in which it took them. -/
theorem flatMap_bytes_step {state : Option Pending} (h : Live state) (b : UInt8) :
    (step state b).1.flatMap Segment.bytes ++ unread (step state b).2 = unread state ++ [b] := by
  cases state with
  | none => exact flatMap_bytes_start b
  | some p =>
    rw [step_some, unread_some]
    rcases (h p rfl).resume_cases b with ⟨c, hc, hbytes⟩ | ⟨q, hq, -, hread⟩ | hr
    · rw [hc]
      simpa using hbytes
    · rw [hq]
      simpa using hread
    · rw [hr, List.flatMap_cons, List.append_assoc, flatMap_bytes_start, Segment.bytes_illFormed]

theorem flatMap_bytes_segmentsFrom : ∀ (bs : Bytes) {state : Option Pending}, Live state →
    (segmentsFrom state bs).flatMap Segment.bytes = unread state ++ bs := by
  -- for every state that a scan reaches, since a step changes it
  intro bs
  induction bs with
  | nil =>
    intro state _
    cases state with
    | none => rfl
    | some p => simp [finish]
  | cons b bs ih =>
    intro state h
    rw [segmentsFrom_cons, List.flatMap_append, ih (h.step b), ← List.append_assoc,
      flatMap_bytes_step h b, List.append_assoc, List.singleton_append]

/-- The segments of a byte sequence are cut from it without loss. -/
theorem flatMap_bytes_segments (bs : Bytes) : (segments bs).flatMap Segment.bytes = bs :=
  flatMap_bytes_segmentsFrom bs live_none

end TunnelEvents.Utf8
