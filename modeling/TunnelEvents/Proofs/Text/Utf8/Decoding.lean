import TunnelEvents.Proofs.Text.Utf8.WellFormed

/-!
# Decoding follows the reference rule

The scanner has no view of what lies ahead, and gives up a sequence at the first byte that does not
fit.  This is late enough and not too late: the bytes read till then do begin a well-formed
sequence, and no well-formed sequence begins with them and the byte that did not fit.  So where no
well-formed sequence begins, the scanner gives out the maximal subpart, and decoding is what the
reference rule says it is.

Both facts come from one: the encoding of a character is scanned as that character, and bytes have
one scan only.

## Main results

* `Begun.unfinished` — a pending sequence begins a well-formed one.
* `segments_cases` — what the scanner gives out first.
* `decodes_iff` — **decoding is the reference decoding.**
-/

namespace TunnelEvents.Utf8

/-! ### Pending sequences -/

/-- A scan that has read the bytes of a pending sequence is at that sequence. -/
theorem Begun.segments_read_append {p : Pending} (h : Begun p) (bs : Bytes) :
    segments (p.read ++ bs) = segmentsFrom (some p) bs := by
  cases h with
  | two h1 h2 => exact segments_cons_of_begin (start_two h1 h2) bs
  | three h1 h2 => exact segments_cons_of_begin (start_three h1 h2) bs
  | @threeSecond b c h1 h2 hc =>
    show segments (b :: c :: bs) = _
    rw [segments_cons_of_begin (start_three h1 h2),
      segmentsFrom_cons_of_more (Pending.resume_more hc)]
    rfl
  | four h1 h2 => exact segments_cons_of_begin (start_four h1 h2) bs
  | @fourSecond b c h1 h2 hc =>
    show segments (b :: c :: bs) = _
    rw [segments_cons_of_begin (start_four h1 h2),
      segmentsFrom_cons_of_more (Pending.resume_more hc)]
    rfl
  | @fourThird b c d h1 h2 hc hd =>
    show segments (b :: c :: d :: bs) = _
    rw [segments_cons_of_begin (start_four h1 h2),
      segmentsFrom_cons_of_more (Pending.resume_more hc),
      segmentsFrom_cons_of_more (Pending.resume_more hd)]
    rfl

theorem secondRange_le (lead : UInt8) : (secondRange lead).1 ≤ (secondRange lead).2 := by
  unfold secondRange
  repeat' split
  all_goals decide

theorem isSecond_secondRange (lead : UInt8) : IsSecond lead (secondRange lead).1 :=
  ⟨UInt8.le_refl _, secondRange_le lead⟩

/-- The least bytes that fit complete a pending sequence. -/
theorem Begun.exists_encodeChar {p : Pending} (h : Begun p) :
    ∃ more c, more ≠ [] ∧ String.utf8EncodeChar c = p.read ++ more := by
  have hcontinuation : IsContinuation 0x80 := ⟨by decide, by decide⟩
  cases h with
  | two h1 h2 =>
    exact ⟨[0x80], _, List.cons_ne_nil _ _,
      (CharBytes.two h1 h2 hcontinuation rfl).encodeChar_ofNat⟩
  | @three b h1 h2 =>
    exact ⟨[(secondRange b).1, 0x80], _, List.cons_ne_nil _ _,
      (CharBytes.three h1 h2 (isSecond_secondRange b) hcontinuation rfl).encodeChar_ofNat⟩
  | threeSecond h1 h2 hc =>
    exact ⟨[0x80], _, List.cons_ne_nil _ _,
      (CharBytes.three h1 h2 hc hcontinuation rfl).encodeChar_ofNat⟩
  | @four b h1 h2 =>
    exact ⟨[(secondRange b).1, 0x80, 0x80], _, List.cons_ne_nil _ _,
      (CharBytes.four h1 h2 (isSecond_secondRange b) hcontinuation hcontinuation
        rfl).encodeChar_ofNat⟩
  | fourSecond h1 h2 hc =>
    exact ⟨[0x80, 0x80], _, List.cons_ne_nil _ _,
      (CharBytes.four h1 h2 hc hcontinuation hcontinuation rfl).encodeChar_ofNat⟩
  | fourThird h1 h2 hc hd =>
    exact ⟨[0x80], _, List.cons_ne_nil _ _,
      (CharBytes.four h1 h2 hc hd hcontinuation rfl).encodeChar_ofNat⟩

theorem Begun.read_ne_nil {p : Pending} (h : Begun p) : p.read ≠ [] := by
  cases h <;> exact List.cons_ne_nil _ _

/-- A pending sequence begins a well-formed one. -/
theorem Begun.unfinished {p : Pending} (h : Begun p) : Unfinished p.read := by
  obtain ⟨more, c, hmore, hc⟩ := h.exists_encodeChar
  exact ⟨h.read_ne_nil, more, hmore, wellFormed_iff_exists_encodeChar.mpr ⟨c, hc⟩⟩

/-! ### Maximal subparts -/

/-- Where the scanner gives out an ill-formed run, no well-formed sequence begins. -/
theorem not_wellFormed_of_segments {bs run : Bytes} {ss : List Segment}
    (h : segments bs = .illFormed run :: ss) : ∀ bytes, bytes <+: bs → ¬ WellFormed bytes := by
  rintro bytes ⟨rest, rfl⟩ hbytes
  obtain ⟨c, rfl⟩ := wellFormed_iff_exists_encodeChar.mp hbytes
  rw [segments_encodeChar_append] at h
  cases h

/-- An unfinished sequence is maximal if the next byte makes a well-formed sequence impossible. -/
theorem maximalSubpart_of_unfinished {run rest : Bytes} (h : Unfinished run)
    (hrest : ∀ b ∈ rest.head?, ∀ more, ¬ WellFormed (run ++ b :: more)) :
    MaximalSubpart run rest := by
  refine .unfinished h ?_
  rintro longer hprefix ⟨-, more, -, hwell⟩
  rcases List.prefix_or_prefix_of_prefix hprefix (List.prefix_append run rest) with hle | hle
  · exact hle.length_le
  · obtain ⟨extra, rfl⟩ := hle
    rw [List.prefix_append_right_inj] at hprefix
    cases extra with
    | nil => simp
    | cons b bs =>
      obtain ⟨tail, rfl⟩ := hprefix
      rw [List.append_assoc, List.cons_append] at hwell
      exact absurd hwell (hrest b rfl _)

/-- Bytes begin with one maximal subpart only. -/
theorem MaximalSubpart.unique {run rest run' rest' : Bytes} (h : MaximalSubpart run rest)
    (h' : MaximalSubpart run' rest') (heq : run ++ rest = run' ++ rest') :
    run = run' ∧ rest = rest' := by
  have hprefix : run <+: run' ++ rest' := heq ▸ List.prefix_append run rest
  have hprefix' : run' <+: run ++ rest := heq ▸ List.prefix_append run' rest'
  -- either both are the longest unfinished sequence, or there is none
  have hlength : run.length = run'.length := by
    cases h with
    | unfinished hrun hmax =>
      cases h' with
      | unfinished hrun' hmax' =>
        exact Nat.le_antisymm (hmax' _ hprefix hrun) (hmax _ hprefix' hrun')
      | single hnone => exact absurd hrun (hnone _ hprefix)
    | single hnone =>
      cases h' with
      | unfinished hrun' _ => exact absurd hrun' (hnone _ hprefix')
      | single _ => rfl
  exact List.append_inj heq hlength

/-! ### What comes first -/

/-- What a scan gives out first where a sequence is pending: the character that the sequence is
completed to, or the maximal subpart that the sequence has become. -/
theorem Begun.segmentsFrom_cases : ∀ (bs : Bytes) {p : Pending}, Begun p →
    (∃ c rest, p.read ++ bs = String.utf8EncodeChar c ++ rest ∧
      segmentsFrom (some p) bs = .scalar c :: segments rest) ∨
    ∃ run rest, p.read ++ bs = run ++ rest ∧ MaximalSubpart run rest ∧
      segmentsFrom (some p) bs = .illFormed run :: segments rest := by
  intro bs
  induction bs with
  | nil =>
    intro p hp
    refine .inr ⟨p.read, [], rfl, maximalSubpart_of_unfinished hp.unfinished ?_, rfl⟩
    rintro b ⟨⟩
  | cons b bs ih =>
    intro p hp
    rcases hp.resume_cases b with ⟨c, hc, hbytes⟩ | ⟨q, hq, hbegun, hread⟩ | hr
    · refine .inl ⟨c, bs, ?_, segmentsFrom_cons_of_last hc bs⟩
      rw [hbytes, List.append_assoc, List.singleton_append]
    · have hnext := ih hbegun
      rwa [hread, List.append_assoc, List.singleton_append, ← segmentsFrom_cons_of_more hq] at hnext
    · -- whatever follows, the byte that does not fit ends the sequence
      have hends : ∀ more, segmentsFrom (some p) (b :: more)
          = .illFormed p.read :: segments (b :: more) := by
        intro more
        rw [segmentsFrom_cons, step_some, hr]
        rfl
      refine .inr ⟨p.read, b :: bs, rfl, maximalSubpart_of_unfinished hp.unfinished ?_, hends bs⟩
      rintro _ ⟨⟩ more
      have hscan : segments (p.read ++ b :: more) = .illFormed p.read :: segments (b :: more) := by
        rw [hp.segments_read_append, hends]
      exact not_wellFormed_of_segments hscan _ (List.prefix_refl _)

/-- What the scanner gives out first: a character where one is encoded, and the maximal subpart
otherwise. -/
theorem segments_cases (bs : Bytes) :
    bs = [] ∨
    (∃ c rest, bs = String.utf8EncodeChar c ++ rest ∧ segments bs = .scalar c :: segments rest) ∨
    ∃ run rest, bs = run ++ rest ∧ MaximalSubpart run rest ∧
      segments bs = .illFormed run :: segments rest := by
  cases bs with
  | nil => exact .inl rfl
  | cons b bs =>
    refine .inr ?_
    rcases start_cases b with ⟨c, h, hc⟩ | ⟨h, -⟩ | ⟨p, h, hp, hread⟩
    · refine .inl ⟨c, bs, by rw [hc, List.singleton_append], ?_⟩
      rw [segments, segmentsFrom_cons, step_none, h]
      rfl
    · have hscan : ∀ more, segments (b :: more) = .illFormed [b] :: segments more := by
        intro more
        rw [segments, segmentsFrom_cons, step_none, h]
        rfl
      refine .inr ⟨[b], bs, rfl, .single ?_, hscan bs⟩
      rintro run hprefix ⟨hne, more, -, hwell⟩
      -- what is unfinished here begins with this byte
      cases run with
      | nil => exact hne rfl
      | cons a as =>
        rw [List.cons_prefix_cons] at hprefix
        obtain ⟨rfl, -⟩ := hprefix
        exact not_wellFormed_of_segments (hscan (as ++ more)) _ (List.prefix_refl _) hwell
    · have hnext := hp.segmentsFrom_cases bs
      rwa [hread, List.singleton_append, ← segments_cons_of_begin h] at hnext

/-- The maximal subpart is given out where no well-formed sequence begins. -/
theorem MaximalSubpart.segments_append {run rest : Bytes} (h : MaximalSubpart run rest)
    (hnone : ∀ bytes, bytes <+: run ++ rest → ¬ WellFormed bytes) :
    segments (run ++ rest) = .illFormed run :: segments rest := by
  rcases segments_cases (run ++ rest) with hnil | ⟨c, more, hbytes, -⟩ |
    ⟨run', rest', heq, h', hscan⟩
  · rw [List.append_eq_nil_iff] at hnil
    obtain ⟨rfl, -⟩ := hnil
    cases h with
    | unfinished hrun _ => exact absurd rfl hrun.1
  · refine absurd (wellFormed_iff_exists_encodeChar.mpr ⟨c, rfl⟩) (hnone _ ?_)
    rw [hbytes]
    exact List.prefix_append _ _
  · obtain ⟨rfl, rfl⟩ := h.unique h' heq
    exact hscan

/-! ### Decoding -/

/-- The characters that stand for the segments are a reference decoding. -/
theorem decodes_segments (bs : Bytes) : Decodes bs ((segments bs).map Segment.toChar) := by
  generalize hss : segments bs = ss
  induction ss generalizing bs with
  | nil =>
    have hbytes := flatMap_bytes_segments bs
    rw [hss] at hbytes
    rw [← hbytes]
    exact .nil
  | cons s ss ih =>
    rcases segments_cases bs with rfl | ⟨c, rest, rfl, hscan⟩ | ⟨run, rest, rfl, hrun, hscan⟩
    · cases hss
    · rw [hscan, List.cons.injEq] at hss
      obtain ⟨rfl, hrest⟩ := hss
      exact .character (wellFormed_iff_exists_encodeChar.mpr ⟨c, rfl⟩) rfl (ih rest hrest)
    · have hnone := not_wellFormed_of_segments hscan
      rw [hscan, List.cons.injEq] at hss
      obtain ⟨rfl, hrest⟩ := hss
      exact .replacement hnone hrun (ih rest hrest)

/-- Every reference decoding is what the scanner gives out. -/
theorem Decodes.eq_map_segments {bs : Bytes} {cs : List Char} (h : Decodes bs cs) :
    (segments bs).map Segment.toChar = cs := by
  induction h with
  | nil => rfl
  | character _ hbytes _ ih =>
    rw [← hbytes, segments_encodeChar_append, List.map_cons, ih, Segment.toChar_scalar]
  | replacement hnone hrun _ ih =>
    rw [hrun.segments_append hnone, List.map_cons, ih, Segment.toChar_illFormed]

/-- Decoding is the reference decoding: each byte sequence has one, and it is the text that is
read. -/
theorem decodes_iff (bytes : Bytes) (text : String) :
    Decodes bytes text.toList ↔ decodeLossy bytes = text := by
  constructor
  · intro h
    rw [decodeLossy, h.eq_map_segments, String.ofList_toList]
  · rintro rfl
    rw [toList_decodeLossy]
    exact decodes_segments bytes

/-- One for a sequence that breaks off, and three for an encoded surrogate. -/
example : decodeLossy [0xE2, 0x82, 0xED, 0xA0, 0x80] = "\uFFFD\uFFFD\uFFFD\uFFFD" := by decide

end TunnelEvents.Utf8
