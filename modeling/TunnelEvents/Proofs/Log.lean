import TunnelEvents.Log
import TunnelEvents.Proofs.Line.Shape

/-!
# No body reaches the log

The trace of a malformed line is told by the length of the line, and that of any other line by its
tag and the number of commas after it.  So lines that are alike in these leave the same trace,
whatever secrets they carry.  The commas may be counted in the bytes: decoding neither makes a
comma nor takes one away.

## Main definitions

* `surplusTraces`, `bodyTraces` — the traces of a body, by its tag and the number of its commas.
* `SameOutline` — two lines are alike in what a trace may tell.

## Main results

* `Fields.length_split_decodeLossy` — a body has one field more than it has commas.
* `quoteText_of_isWord` — a word is quoted as it is.
* `logOfLine_outline` — **the traces of a line, and that they tell no more than its outline.**
-/

namespace TunnelEvents

/-! ### Traces by their outline -/

/-- The traces of a body with `got` fields where `expected` are read. -/
def surplusTraces (tag : String) (got expected : Nat) : List String :=
  if expected < got then
    ["TRACE " ++ tag ++ " carried " ++ got.repr ++ " fields, ignoring " ++ (got - expected).repr]
  else []

/-- The traces of a body after a tag, by the number of its commas. -/
def bodyTraces (tag : String) (commas : Nat) : List String :=
  match EventKind.ofTag? tag with
  | none => ["TRACE unknown management event tag \"" ++ tag ++ "\""]
  | some .state => surplusTraces "STATE" (commas + 1) 5
  | some .byteCount => surplusTraces "BYTECOUNT" (commas + 1) 2
  | some .byteCountClient => surplusTraces "BYTECOUNT_CLI" (commas + 1) 3
  | some _ => []

/-- Two lines are alike in what a trace may tell. -/
inductive SameOutline (a b : Bytes) : Prop
  /-- Both are malformed, and equally long. -/
  | malformed : (Event.ofLine a).isMalformed = true → (Event.ofLine b).isMalformed = true →
    a.length = b.length → SameOutline a b
  /-- Both have one tag, and equally many commas after it. -/
  | tagged {word : String} {bodyA bodyB : Bytes} : Shaped a word bodyA → Shaped b word bodyB →
    bodyA.count 0x2C = bodyB.count 0x2C → SameOutline a b

theorem surplusTraces_of_le (tag : String) {got expected : Nat} (h : got ≤ expected) :
    surplusTraces tag got expected = [] := by
  rw [surplusTraces, if_neg (by omega)]

/-- The trace of a body tells how many fields are ignored. -/
theorem surplusTraces_add (tag : String) (expected : Nat) {ignored : Nat} (h : 0 < ignored) :
    surplusTraces tag (expected + ignored) expected
      = ["TRACE " ++ tag ++ " carried " ++ (expected + ignored).repr ++ " fields, ignoring "
          ++ ignored.repr] := by
  rw [surplusTraces, if_pos (by omega), Nat.add_sub_cancel_left]

/-! ### Counting fields -/

/-- A body has one field more than it has commas. -/
theorem Fields.length_split_decodeLossy (body : Bytes) :
    (split (Utf8.decodeLossy body)).length = body.count 0x2C + 1 := by
  rw [split_decodeLossy, List.length_map, length_splitOn]

/-! ### Quoting a word -/

/-- A visible ASCII character that is no mark stands for itself inside quotation marks. -/
theorem Quoted.escape_of_visible {style : Style} {c : Char} (hlow : 0x20 ≤ c.toNat)
    (hhigh : c.toNat < 0x7F) (hbackslash : c ≠ '\\') (hmarks : c ∉ style.marks) :
    escape style c = [c] := by
  have hshort : shortEscape? c = none := by
    have hne : ∀ d : Char, d.toNat < 0x20 → c ≠ d := by
      rintro d hd rfl
      omega
    rw [shortEscape?, if_neg (hne _ (by decide)), if_neg (hne _ (by decide)),
      if_neg (hne _ (by decide)), if_neg (hne _ (by decide)), if_neg hbackslash]
  have hcontrol : ¬ (c.toNat < 0x20 ∨ c.toNat = 0x7F) := by omega
  have hprinting : isNonPrinting c = false := isNonPrinting_of_lt (by omega)
  simp only [escape, hshort, if_neg hmarks, if_neg hcontrol, hprinting, Bool.false_eq_true,
    if_false]

/-- No character of a word is escaped. -/
theorem quoteText_of_isWord {s : String} (h : IsWord s) : quoteText s = "\"" ++ s ++ "\"" := by
  have hchar : ∀ c ∈ s.toList, Quoted.escape Quoted.textStyle c = [c] := by
    intro c hc
    have hrange := toNat_of_isAlphanum (h.2 c hc)
    have hne : ∀ d : Char, d.toNat = 0x22 ∨ d.toNat = 0x5C → c ≠ d := by
      rintro d hd rfl
      omega
    refine Quoted.escape_of_visible (by omega) (by omega) (hne _ (by decide)) ?_
    exact fun hmem => hne _ (by decide) (List.mem_singleton.mp hmem)
  have hflat : s.toList.flatMap (Quoted.escape Quoted.textStyle) = s.toList := by
    rw [List.flatMap_def, List.map_congr_left hchar, ← List.flatMap_def, List.flatMap_singleton']
  rw [quoteText, hflat, Quoted.enclose_eq, String.ofList_toList]

/-! ### Records of lines -/

theorem logOfLine_of_shaped {line body : Bytes} {word : String} (h : Shaped line word body) :
    logOfLine line = (Line.tagged word body).log := by
  rw [logOfLine, Line.read_of_shaped h]

theorem logOfLine_of_not_shaped {line : Bytes} (h : ∀ word body, ¬ Shaped line word body) :
    logOfLine line = [.malformed line.length] := by
  rw [logOfLine, Line.read_of_not_shaped h]
  rfl

/-- The records of a body are told by the number of its commas. -/
theorem EventKind.log_decodeLossy (k : EventKind) (body : Bytes) :
    k.log (Utf8.decodeLossy body) =
      match k.fieldCount? with
      | some expected =>
        if expected < body.count 0x2C + 1 then [.surplus k (body.count 0x2C + 1) expected] else []
      | none => [] := by
  rw [← Fields.length_split_decodeLossy]
  rfl

theorem LogRecord.level_eq (r : LogRecord) : r.level = .trace := by
  cases r <;> rfl

theorem LogRecord.render_eq (r : LogRecord) : r.render = "TRACE " ++ r.message := by
  have hname : LogLevel.trace.name ++ " " = "TRACE " := by decide
  rw [render, r.level_eq, hname]

/-- A record of surplus fields is a sentence of the tag and two numbers. -/
theorem map_render_surplus (k : EventKind) (got expected : Nat) :
    (if expected < got then [LogRecord.surplus k got expected] else []).map LogRecord.render
      = surplusTraces k.tag got expected := by
  rw [surplusTraces]
  split
  · rw [List.map_singleton, LogRecord.render_eq, LogRecord.message_surplus]
    simp only [String.append_assoc]
  · rfl

theorem render_unknownTag {word : String} (h : IsWord word) :
    (LogRecord.unknownTag word).render
      = "TRACE unknown management event tag \"" ++ word ++ "\"" := by
  have hsplit : "TRACE unknown management event tag \""
      = "TRACE " ++ "unknown management event tag " ++ "\"" := by
    simp only [String.reduceAppend]
  rw [LogRecord.render_eq, LogRecord.message_unknownTag, quoteText_of_isWord h, hsplit]
  simp only [String.append_assoc]

/-- A line with a tag leaves the traces of its tag and the number of its commas. -/
theorem map_render_logOfLine {line body : Bytes} {word : String} (h : Shaped line word body) :
    (logOfLine line).map LogRecord.render = bodyTraces word (body.count 0x2C) := by
  rw [logOfLine_of_shaped h, Line.log, bodyTraces]
  cases hk : EventKind.ofTag? word with
  | none => exact congrArg (· :: []) (render_unknownTag h.isWord)
  | some k =>
    dsimp only
    rw [EventKind.log_decodeLossy]
    cases k with
    | state => exact map_render_surplus .state _ _
    | byteCount => exact map_render_surplus .byteCount _ _
    | byteCountClient => exact map_render_surplus .byteCountClient _ _
    | _ => rfl

/-- A line of a kind whose body is divided leaves the trace of its surplus fields. -/
theorem map_render_tag_append (k : EventKind) {expected : Nat} (h : k.fieldCount? = some expected)
    (body : Bytes) : (logOfLine (Utf8.encode (k.tag ++ ":") ++ body)).map LogRecord.render
      = surplusTraces k.tag (body.count 0x2C + 1) expected := by
  rw [logOfLine_of_shaped (shaped_tag_append k body), Line.log, EventKind.ofTag?_tag]
  dsimp only
  rw [EventKind.log_decodeLossy, h]
  exact map_render_surplus k (body.count 0x2C + 1) expected

theorem render_malformed (length : Nat) :
    (LogRecord.malformed length).render
      = "TRACE malformed management line (" ++ length.repr ++ " bytes)" := by
  have hsplit : "TRACE malformed management line ("
      = "TRACE " ++ "malformed management line (" := by
    simp only [String.reduceAppend]
  rw [LogRecord.render_eq, LogRecord.message_malformed, hsplit]
  simp only [String.append_assoc]

theorem EventKind.length_log_le (k : EventKind) (body : String) : (k.log body).length ≤ 1 := by
  unfold EventKind.log
  cases k.fieldCount? with
  | none => exact Nat.zero_le 1
  | some expected =>
    dsimp only
    split
    · exact Nat.le_refl 1
    · exact Nat.zero_le 1

theorem length_logOfLine_le (line : Bytes) : (logOfLine line).length ≤ 1 := by
  unfold logOfLine
  cases Line.read line with
  | malformed raw => exact Nat.le_refl 1
  | tagged tag body =>
    rw [Line.log]
    cases EventKind.ofTag? tag with
    | none => exact Nat.le_refl 1
    | some k => exact k.length_log_le _

/-- Lines of one outline leave the same records. -/
theorem SameOutline.logOfLine_eq {a b : Bytes} (h : SameOutline a b) :
    logOfLine a = logOfLine b := by
  cases h with
  | malformed ha hb hlength =>
    rw [logOfLine_of_not_shaped (Event.isMalformed_ofLine_iff.mp ha),
      logOfLine_of_not_shaped (Event.isMalformed_ofLine_iff.mp hb), hlength]
  | tagged ha hb hcount =>
    rw [logOfLine_of_shaped ha, logOfLine_of_shaped hb, Line.log, Line.log]
    cases EventKind.ofTag? _ with
    | none => rfl
    | some k =>
      dsimp only
      rw [EventKind.log_decodeLossy, EventKind.log_decodeLossy, hcount]

/-- Reading a line leaves at most one record, of the lowest level.  It tells the length of a
malformed line, and the tag and the number of commas of any other line; nothing else about a line
makes a difference. -/
theorem logOfLine_outline :
    (∀ line, (logOfLine line).length ≤ 1 ∧ ∀ r ∈ logOfLine line, r.level = .trace) ∧
    (∀ line, (Event.ofLine line).isMalformed = true →
      (logOfLine line).map LogRecord.render
        = ["TRACE malformed management line (" ++ line.length.repr ++ " bytes)"]) ∧
    (∀ line word body, Shaped line word body →
      (logOfLine line).map LogRecord.render = bodyTraces word (body.count 0x2C)) ∧
    ∀ a b, SameOutline a b → logOfLine a = logOfLine b := by
  refine ⟨fun line => ⟨length_logOfLine_le line, fun r _ => r.level_eq⟩, fun line h => ?_,
    fun line word body h => map_render_logOfLine h, fun a b h => h.logOfLine_eq⟩
  rw [logOfLine_of_not_shaped (Event.isMalformed_ofLine_iff.mp h), List.map_singleton,
    render_malformed]

/-- Two passwords leave the same trace, and so do two byte counts with one surplus field, one of
them ill-formed. -/
theorem logOfLine_outline_secrets :
    logOfLine (Utf8.encode "PASSWORD:" ++ [0x61]) = logOfLine (Utf8.encode "PASSWORD:" ++ [0x62]) ∧
      (logOfLine (Utf8.encode "BYTECOUNT:" ++ [0x31, 0x2C, 0xE2, 0x2C])).map LogRecord.render
        = ["TRACE BYTECOUNT carried 3 fields, ignoring 1"] ∧
      (Event.ofLine [0x00]).isMalformed = true ∧
      (logOfLine [0x00]).map LogRecord.render
        = ["TRACE malformed management line (1 bytes)"] := by
  obtain ⟨-, hmalformed, htagged, hsame⟩ := logOfLine_outline
  have hnul : (Event.ofLine [0x00]).isMalformed = true := by decide
  refine ⟨hsame _ _ (.tagged (shaped_tag_append .password _) (shaped_tag_append .password _) rfl),
    htagged _ _ _ (shaped_tag_append .byteCount _), hnul, hmalformed _ hnul⟩

end TunnelEvents
