import TunnelEvents.Proofs.Text.Hexadecimal
import TunnelEvents.Proofs.Text.Utf8.RoundTrip
import TunnelEvents.Text.Quoted.Grammar

/-!
# Quoted bytes keep to the grammar

A byte sequence is quoted segment by segment, and each segment as one or more items that stand for
its bytes.  The reader takes a text of the grammar apart into the same items.  So what was quoted is
read back, and all that the grammar says of quoted texts holds of quoted bytes.

## Main definitions

* `Style.Faithful` — what a style must do for its texts to keep to the grammar.

## Main results

* `Spelling.items?_eq` — **a text of the grammar is read as the items that it spells.**
* `Spelling.isVisible`, `Spelling.marksEscaped` — a text of the grammar is safe to print.
* `escape_cases` — what quoting does to a character.
* `exists_spelling_quoteBytes` — **quoted bytes are a text of the grammar.**
-/

namespace TunnelEvents.Quoted

/-! ### Reading the grammar -/

namespace Reading

/-- A character that completes no item. -/
theorem items?_cons_of_silent {reading next : Reading} {c : Char}
    (h : reading.step c = some ([], next)) (cs : List Char) :
    reading.items? (c :: cs) = next.items? cs := by
  rw [items?_cons, h, Option.bind_some]
  exact Option.map_id_apply

/-- A character that completes an item. -/
theorem items?_cons_of_item {reading next : Reading} {c : Char} {item : Item}
    (h : reading.step c = some ([item], next)) (cs : List Char) :
    reading.items? (c :: cs) = (next.items? cs).map (item :: ·) := by
  rw [items?_cons, h, Option.bind_some]
  rfl

theorem step_backslash_of_mem {c letter : Char} (h : (c, letter) ∈ shortEscapes) :
    Reading.backslash.step letter = some ([.char c], .idle) := by
  have key : ∀ p ∈ shortEscapes, afterBackslash p.2 = some ([.char p.1], .idle) := by decide
  exact key _ h

theorem step_digits {value d : Nat} {c : Char} (h : Hexadecimal.digit? c = some d) :
    (Reading.digits value).step c = some ([], .digits (16 * value + d)) := by
  have hbrace : c ≠ '\x7d' := Hexadecimal.ne_of_digit?_eq_some h (by decide)
  rw [step, if_neg hbrace, h, Option.map_some]

/-- Digits add up to their value. -/
theorem items?_digits {value n : Nat} {ds : List Char}
    (h : Hexadecimal.valueFrom? value ds = some n) (cs : List Char) :
    (Reading.digits value).items? (ds ++ cs) = (Reading.digits n).items? cs := by
  induction ds generalizing value with
  | nil =>
    cases h
    rfl
  | cons c ds ih =>
    obtain ⟨d, hd, h⟩ := Hexadecimal.valueFrom?_cons_eq_some_iff.mp h
    rw [List.cons_append, items?_cons_of_silent (step_digits hd), ih h]

theorem step_digits_close (c : Char) :
    (Reading.digits c.toNat).step '\x7d' = some ([.char c], .idle) := by
  have hvalid : c.toNat.isValidChar := c.valid
  rw [step, if_pos rfl, if_pos hvalid, Char.ofNat_toNat]

end Reading

/-- An item is read however it is written, whatever follows. -/
theorem ItemSpelling.items?_append {item : Item} {cs : List Char} (h : ItemSpelling item cs)
    (rest : List Char) :
    Reading.idle.items? (cs ++ rest) = (Reading.idle.items? rest).map (item :: ·) := by
  have hbackslash : Reading.idle.step '\\' = some ([], .backslash) := rfl
  cases h with
  | @plain c _ _ hc =>
    have hstep : Reading.idle.step c = some ([.char c], .idle) := by rw [Reading.step, if_neg hc]
    exact Reading.items?_cons_of_item hstep rest
  | @short c letter hmem =>
    show Reading.idle.items? ('\\' :: letter :: rest) = _
    rw [Reading.items?_cons_of_silent hbackslash,
      Reading.items?_cons_of_item (Reading.step_backslash_of_mem hmem)]
  | @byte p q m n hp hq =>
    have hx : Reading.backslash.step 'x' = some ([], .byte) := rfl
    have hhigh : Reading.byte.step p = some ([], .lastDigit m) := by
      rw [Reading.step, hp, Option.map_some]
    have hlow : (Reading.lastDigit m).step q = some ([.byte (16 * m + n).toUInt8], .idle) := by
      rw [Reading.step, hq, Option.map_some]
    show Reading.idle.items? ('\\' :: 'x' :: p :: q :: rest) = _
    rw [Reading.items?_cons_of_silent hbackslash, Reading.items?_cons_of_silent hx,
      Reading.items?_cons_of_silent hhigh, Reading.items?_cons_of_item hlow]
  | @codePoint c digits hdigits =>
    obtain ⟨p, d, ds, rfl, hd, hvalue⟩ := Hexadecimal.exists_of_natural?_eq_some hdigits
    have hu : Reading.backslash.step 'u' = some ([], .codePoint) := rfl
    have hopen : Reading.codePoint.step '\x7b' = some ([], .firstDigit) := rfl
    have hfirst : Reading.firstDigit.step p = some ([], .digits d) := by
      rw [Reading.step, hd, Option.map_some]
    have htext : ['\\', 'u', '\x7b'] ++ p :: ds ++ ['\x7d'] ++ rest
        = '\\' :: 'u' :: '\x7b' :: p :: (ds ++ '\x7d' :: rest) := by simp
    rw [htext, Reading.items?_cons_of_silent hbackslash, Reading.items?_cons_of_silent hu,
      Reading.items?_cons_of_silent hopen, Reading.items?_cons_of_silent hfirst,
      Reading.items?_digits hvalue, Reading.items?_cons_of_item (Reading.step_digits_close c)]

/-- A text of the grammar is read as the items that it spells. -/
theorem Spelling.items?_eq {items : List Item} {cs : List Char} (h : Spelling items cs) :
    items? cs = some items := by
  rw [items?]
  induction h with
  | nil => rfl
  | cons hitem _ ih => rw [hitem.items?_append, ih, Option.map_some]

theorem Spelling.bytes?_eq {items : List Item} {cs : List Char} (h : Spelling items cs) :
    bytes? cs = some (items.flatMap Item.bytes) := by
  rw [bytes?, h.items?_eq, Option.map_some]

/-! ### Printing the grammar -/

theorem isVisible_of_ascii {c : Char} (h : 0x20 ≤ c.toNat) (h' : c.toNat < 0x7F) :
    IsVisible c :=
  ⟨h, by omega, isNonPrinting_eq_false_iff.mp (isNonPrinting_of_lt (by omega))⟩

theorem isVisible_of_digit? {c : Char} {n : Nat} (h : Hexadecimal.digit? c = some n) :
    IsVisible c := by
  have := Hexadecimal.toNat_of_digit?_eq_some h
  exact isVisible_of_ascii (by omega) (by omega)

/-- However an item is written, all of it can be seen. -/
theorem ItemSpelling.isVisible {item : Item} {cs : List Char} (h : ItemSpelling item cs) :
    ∀ c ∈ cs, IsVisible c := by
  have hbackslash : IsVisible '\\' := isVisible_of_ascii (by decide) (by decide)
  cases h with
  | plain hc => exact List.forall_mem_singleton.mpr hc
  | @short c letter hmem =>
    have key : ∀ p ∈ shortEscapes, 0x20 ≤ p.2.toNat ∧ p.2.toNat < 0x7F := by decide
    rw [List.forall_mem_cons, List.forall_mem_singleton]
    exact ⟨hbackslash, isVisible_of_ascii (key _ hmem).1 (key _ hmem).2⟩
  | byte hp hq =>
    have hx : IsVisible 'x' := isVisible_of_ascii (by decide) (by decide)
    simp only [List.forall_mem_cons]
    exact ⟨hbackslash, hx, isVisible_of_digit? hp, isVisible_of_digit? hq, List.forall_mem_nil _⟩
  | codePoint hdigits =>
    have hu : IsVisible 'u' := isVisible_of_ascii (by decide) (by decide)
    have hopen : IsVisible '\x7b' := isVisible_of_ascii (by decide) (by decide)
    have hclose : IsVisible '\x7d' := isVisible_of_ascii (by decide) (by decide)
    simp only [List.forall_mem_append, List.forall_mem_cons]
    refine ⟨⟨⟨hbackslash, hu, hopen, List.forall_mem_nil _⟩, fun c hc => ?_⟩, hclose,
      List.forall_mem_nil _⟩
    obtain ⟨d, hd⟩ := Hexadecimal.exists_digit?_of_natural? hdigits c hc
    exact isVisible_of_digit? hd

/-- A text of the grammar can be seen as a whole. -/
theorem Spelling.isVisible {items : List Item} {cs : List Char} (h : Spelling items cs) :
    ∀ c ∈ cs, IsVisible c := by
  induction h with
  | nil => exact List.forall_mem_nil _
  | cons hitem _ ih =>
    rw [List.forall_mem_append]
    exact ⟨hitem.isVisible, ih⟩

/-- An item with a double quotation mark in it is the escape of one. -/
theorem ItemSpelling.eq_of_mark_mem {item : Item} {cs : List Char} (h : ItemSpelling item cs)
    (hmark : '"' ∈ cs) : cs = ['\\', '"'] := by
  have hdigit : Hexadecimal.digit? '"' = none := by decide
  cases h with
  | plain _ hc => exact absurd (List.mem_singleton.mp hmark).symm hc
  | short hmem =>
    rw [List.mem_cons, List.mem_singleton] at hmark
    rcases hmark with h | rfl
    · exact absurd h (by decide)
    · rfl
  | byte hp hq =>
    simp only [List.mem_cons, List.not_mem_nil, or_false] at hmark
    rcases hmark with h | h | rfl | rfl
    · exact absurd h (by decide)
    · exact absurd h (by decide)
    · exact absurd rfl (Hexadecimal.ne_of_digit?_eq_some hp hdigit)
    · exact absurd rfl (Hexadecimal.ne_of_digit?_eq_some hq hdigit)
  | codePoint hdigits =>
    simp only [List.mem_append, List.mem_cons, List.not_mem_nil, or_false] at hmark
    rcases hmark with (h | h) | h
    · exact absurd h (by decide)
    · obtain ⟨d, hd⟩ := Hexadecimal.exists_digit?_of_natural? hdigits _ h
      exact absurd rfl (Hexadecimal.ne_of_digit?_eq_some hd hdigit)
    · exact absurd h (by decide)

/-- In an item a double quotation mark follows a backslash. -/
theorem ItemSpelling.eq_of_append_mark {item : Item} {before after : List Char}
    (h : ItemSpelling item (before ++ '"' :: after)) : before = ['\\'] := by
  have heq := h.eq_of_mark_mem (List.mem_append_right before List.mem_cons_self)
  cases before with
  | nil =>
    rw [List.nil_append, List.cons.injEq] at heq
    exact absurd heq.1 (by decide)
  | cons b bs =>
    rw [List.cons_append, List.cons.injEq, List.append_eq_singleton_iff] at heq
    obtain ⟨rfl, ⟨rfl, -⟩ | ⟨-, hnil⟩⟩ := heq
    · rfl
    · cases hnil

/-- In a text of the grammar every double quotation mark is part of an escape. -/
theorem Spelling.marksEscaped {items : List Item} {cs : List Char} (h : Spelling items cs) :
    MarksEscaped cs := by
  induction h with
  | nil =>
    intro before after heq
    simp at heq
  | @cons item items cs rest hitem _ ih =>
    intro before after heq
    rcases List.append_eq_append_iff.mp heq with ⟨start, rfl, hrest⟩ | ⟨tail, hcs, htail⟩
    · -- the mark is among the later items
      obtain ⟨more, ds, hds, rfl⟩ := ih start after hrest
      exact ⟨item :: more, cs ++ ds, .cons hitem hds, (List.append_assoc cs ds _).symm⟩
    · rcases List.cons_eq_append_iff.mp htail with ⟨rfl, hrest⟩ | ⟨after', rfl, -⟩
      · obtain ⟨_, ds, -, hds⟩ := ih [] after hrest
        simp at hds
      · rw [hcs] at hitem
        exact ⟨[], [], .nil, hitem.eq_of_append_mark⟩

/-! ### Writing -/

/-- What quoting does to a character: it writes a short escape, a mark behind a backslash, an ASCII
control character as the style has it, a code point, or the character itself. -/
theorem escape_cases (style : Style) (c : Char) :
    (∃ letter, shortEscape? c = some letter ∧ escape style c = ['\\', letter]) ∨
    (c ∈ style.marks ∧ escape style c = ['\\', c]) ∨
    (c.toNat < 0x80 ∧ escape style c = style.control c.toNat) ∨
    escape style c = codePointEscape c.toNat ∨
    (shortEscape? c = none ∧ c ∉ style.marks ∧ 0x20 ≤ c.toNat ∧ c.toNat ≠ 0x7F ∧
      isNonPrinting c = false ∧ escape style c = [c]) := by
  unfold escape
  cases hshort : shortEscape? c with
  | some letter => exact .inl ⟨letter, rfl, rfl⟩
  | none =>
    refine .inr ?_
    dsimp only
    by_cases hmark : c ∈ style.marks
    · exact .inl ⟨hmark, if_pos hmark⟩
    · refine .inr ?_
      rw [if_neg hmark]
      by_cases hcontrol : c.toNat < 0x20 ∨ c.toNat = 0x7F
      · exact .inl ⟨by omega, if_pos hcontrol⟩
      · refine .inr ?_
        rw [if_neg hcontrol]
        cases hprinting : isNonPrinting c with
        | true => exact .inl rfl
        | false => exact .inr ⟨rfl, hmark, by omega, by omega, rfl, rfl⟩

theorem mem_textEscapes_of_shortEscape? {c letter : Char} (h : shortEscape? c = some letter) :
    (c, letter) ∈ textEscapes := by
  grind [shortEscape?, textEscapes]

/-- The short escapes of text are short escapes. -/
theorem mem_shortEscapes_of_mem_textEscapes {c letter : Char} (h : (c, letter) ∈ textEscapes) :
    (c, letter) ∈ shortEscapes := by
  have key : ∀ e ∈ textEscapes, e ∈ shortEscapes := by decide
  exact key _ h

/-- A character that stands for itself neither ends a text nor begins an escape. -/
theorem ne_of_not_escaped {style : Style} {c : Char} (hquote : '"' ∈ style.marks)
    (hshort : shortEscape? c = none) (hmark : c ∉ style.marks) : c ≠ '"' ∧ c ≠ '\\' := by
  constructor
  · rintro rfl
    exact hmark hquote
  · rintro rfl
    cases hshort

/-- What a style must do for its texts to keep to the grammar: escape the mark that ends them, and
other marks only if they have an escape. -/
structure Style.Faithful (style : Style) : Prop where
  mark_mem : '"' ∈ style.marks
  mem_shortEscapes : ∀ m ∈ style.marks, (m, m) ∈ shortEscapes

theorem faithful_bytesStyle : bytesStyle.Faithful where
  mark_mem := by simp [bytesStyle]
  mem_shortEscapes := by simp [bytesStyle, shortEscapes]

theorem itemSpelling_byteEscape (b : UInt8) : ItemSpelling (.byte b) (byteEscape b.toNat) := by
  have hlt := b.toNat_lt
  have hvalue : (16 * (b.toNat / 16) + b.toNat % 16).toUInt8 = b := by
    rw [Nat.div_add_mod]
    exact UInt8.ofNat_toNat
  have hspelling := ItemSpelling.byte (Hexadecimal.digit?_digitChar (n := b.toNat / 16) (by omega))
    (Hexadecimal.digit?_digitChar (n := b.toNat % 16) (by omega))
  rwa [hvalue] at hspelling

theorem itemSpelling_codePointEscape (c : Char) :
    ItemSpelling (.char c) (codePointEscape c.toNat) :=
  .codePoint (Hexadecimal.natural?_toDigits c.toNat)

/-- A character is written as an item of that character, unless it is a control character that the
style writes in its own way. -/
theorem Style.Faithful.itemSpelling_escape {style : Style} (h : style.Faithful) (c : Char) :
    ItemSpelling (.char c) (escape style c) ∨
      c.toNat < 0x80 ∧ escape style c = style.control c.toNat := by
  rcases escape_cases style c with ⟨letter, hshort, heq⟩ | ⟨hmark, heq⟩ | hcontrol | heq |
    ⟨hshort, hmark, hlow, hdelete, hprinting, heq⟩
  · rw [heq]
    have htext := mem_textEscapes_of_shortEscape? hshort
    exact .inl (.short (mem_shortEscapes_of_mem_textEscapes htext))
  · rw [heq]
    exact .inl (.short (h.mem_shortEscapes c hmark))
  · exact .inr hcontrol
  · rw [heq]
    exact .inl (itemSpelling_codePointEscape c)
  · obtain ⟨hquote, hbackslash⟩ := ne_of_not_escaped h.mark_mem hshort hmark
    rw [heq]
    exact .inl (.plain ⟨hlow, hdelete, isNonPrinting_eq_false_iff.mp hprinting⟩ hquote hbackslash)

/-- A character of quoted bytes is written as an item of its own bytes. -/
theorem exists_itemSpelling_escape (c : Char) :
    ∃ item, ItemSpelling item (escape bytesStyle c) ∧ item.bytes = String.utf8EncodeChar c := by
  rcases faithful_bytesStyle.itemSpelling_escape c with h | ⟨hlt, heq⟩
  · exact ⟨.char c, h, rfl⟩
  · have hval : (UInt8.ofNat c.toNat).toNat = c.toNat := by
      rw [UInt8.toNat_ofNat']
      omega
    have hspelling := itemSpelling_byteEscape (UInt8.ofNat c.toNat)
    rw [hval] at hspelling
    refine ⟨.byte (UInt8.ofNat c.toNat), ?_, (Utf8.encodeChar_of_lt hlt).symm⟩
    rw [heq]
    exact hspelling

/-- An ill-formed run is written byte by byte. -/
theorem spelling_byteEscapes (bytes : Bytes) :
    Spelling (bytes.map .byte) (bytes.flatMap fun b => byteEscape b.toNat) := by
  induction bytes with
  | nil => exact .nil
  | cons b bytes ih =>
    rw [List.map_cons, List.flatMap_cons]
    exact .cons (itemSpelling_byteEscape b) ih

/-- A segment is written as items of its own bytes. -/
theorem exists_spelling_escapeSegment (s : Utf8.Segment) :
    ∃ items, Spelling items (escapeSegment s) ∧ items.flatMap Item.bytes = s.bytes := by
  cases s with
  | scalar c =>
    obtain ⟨item, hitem, hbytes⟩ := exists_itemSpelling_escape c
    refine ⟨[item], hitem.spelling, ?_⟩
    rw [List.flatMap_singleton, hbytes, Utf8.Segment.bytes_scalar]
  | illFormed bytes =>
    refine ⟨bytes.map .byte, spelling_byteEscapes bytes, ?_⟩
    rw [List.flatMap_map, Utf8.Segment.bytes_illFormed]
    exact List.flatMap_singleton' bytes

theorem exists_spelling_flatMap (ss : List Utf8.Segment) :
    ∃ items, Spelling items (ss.flatMap escapeSegment) ∧
      items.flatMap Item.bytes = ss.flatMap Utf8.Segment.bytes := by
  induction ss with
  | nil => exact ⟨[], .nil, rfl⟩
  | cons s ss ih =>
    obtain ⟨items, hitems, hbytes⟩ := exists_spelling_escapeSegment s
    obtain ⟨more, hmore, hmoreBytes⟩ := ih
    refine ⟨items ++ more, hitems.append hmore, ?_⟩
    rw [List.flatMap_append, hbytes, hmoreBytes, List.flatMap_cons]

/-- Quoted bytes are a text of the grammar, between quotation marks. -/
theorem exists_spelling_quoteBytes (bytes : Bytes) :
    ∃ items escaped, quoteBytes bytes = enclose escaped ∧ Spelling items escaped ∧
      items.flatMap Item.bytes = bytes := by
  obtain ⟨items, hitems, hbytes⟩ := exists_spelling_flatMap (Utf8.segments bytes)
  rw [Utf8.flatMap_bytes_segments] at hbytes
  exact ⟨items, _, rfl, hitems, hbytes⟩

end TunnelEvents.Quoted
