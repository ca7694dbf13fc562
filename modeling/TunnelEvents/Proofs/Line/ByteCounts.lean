import TunnelEvents.Proofs.Log

/-!
# Byte counts of a client

The body of a byte count for one client is a client and the body of a byte count, with a comma
between them.  So the client takes up the first field and everything after it is as in a byte count
without a client: the two counters stand one place further on, and one field more may come before
any is surplus.  This holds of any bytes, also where the client ends in an ill-formed run.

## Main results

* `ByteCount.ofClientBody_append_comma` — the counters of a client are those of the body after it.
* `byteCounts_agree` — **the two layouts tell the same counters and drop the same fields.**
-/

namespace TunnelEvents

/-! ### Bodies -/

/-- A byte count without a client has two counters and nothing else. -/
theorem ByteCount.ofBody_eq (body : String) :
    ofBody body = ⟨false, "", (ofBody body).bytesIn, (ofBody body).bytesOut⟩ := by
  rw [ofBody]

/-- The counters of a client are those of the body after it. -/
theorem ByteCount.ofClientBody_append_comma {clientId : String} (h : Fields.IsField clientId)
    (body : String) :
    ofClientBody (clientId ++ "," ++ body)
      = ⟨true, clientId, (ofBody body).bytesIn, (ofBody body).bytesOut⟩ := by
  rw [ofClientBody, Fields.split_append_comma h, ofBody, Fields.textAt_cons_zero,
    Fields.counterAt_cons_succ, Fields.counterAt_cons_succ]

/-! ### Lines -/

/-- A byte count of a client has the counters that the rest of its body has as a byte count.  Either
neither line leaves a trace, or each leaves one and both tell that equally many fields were
ignored. -/
theorem byteCounts_agree (client body : Bytes) (h : 0x2C ∉ client) :
    (∃ bytesIn bytesOut,
      Event.ofLine (Utf8.encode "BYTECOUNT_CLI:" ++ (client ++ 0x2C :: body))
        = .byteCount ⟨true, Utf8.decodeLossy client, bytesIn, bytesOut⟩ ∧
      Event.ofLine (Utf8.encode "BYTECOUNT:" ++ body)
        = .byteCount ⟨false, "", bytesIn, bytesOut⟩) ∧
    ((logOfLine (Utf8.encode "BYTECOUNT_CLI:" ++ (client ++ 0x2C :: body)) = [] ∧
        logOfLine (Utf8.encode "BYTECOUNT:" ++ body) = []) ∨
      ∃ ignored, 0 < ignored ∧
        (logOfLine (Utf8.encode "BYTECOUNT_CLI:" ++ (client ++ 0x2C :: body))).map LogRecord.render
          = ["TRACE BYTECOUNT_CLI carried " ++ (3 + ignored).repr ++ " fields, ignoring "
              ++ ignored.repr] ∧
        (logOfLine (Utf8.encode "BYTECOUNT:" ++ body)).map LogRecord.render
          = ["TRACE BYTECOUNT carried " ++ (2 + ignored).repr ++ " fields, ignoring "
              ++ ignored.repr]) := by
  have hfield : Fields.IsField (Utf8.decodeLossy client) := Fields.isField_decodeLossy_iff.mpr h
  constructor
  · refine ⟨(ByteCount.ofBody (Utf8.decodeLossy body)).bytesIn,
      (ByteCount.ofBody (Utf8.decodeLossy body)).bytesOut, ?_, ?_⟩
    · rw [← ByteCount.ofClientBody_append_comma hfield, ← Fields.decodeLossy_append_comma]
      exact Event.ofLine_tag_append .byteCountClient (client ++ 0x2C :: body)
    · rw [← ByteCount.ofBody_eq]
      exact Event.ofLine_tag_append .byteCount body
  · -- the comma after the client is the one field more that a client may have
    have hcount : (client ++ 0x2C :: body).count 0x2C = body.count 0x2C + 1 := by
      rw [List.count_append, List.count_eq_zero.mpr h, List.count_cons_self, Nat.zero_add]
    have hclient : (logOfLine (Utf8.encode "BYTECOUNT_CLI:" ++ (client ++ 0x2C :: body))).map
        LogRecord.render = surplusTraces "BYTECOUNT_CLI" (body.count 0x2C + 1 + 1) 3 :=
      hcount ▸ map_render_tag_append .byteCountClient rfl (client ++ 0x2C :: body)
    have hown : (logOfLine (Utf8.encode "BYTECOUNT:" ++ body)).map LogRecord.render
        = surplusTraces "BYTECOUNT" (body.count 0x2C + 1) 2 :=
      map_render_tag_append .byteCount rfl body
    rcases Nat.lt_or_ge 1 (body.count 0x2C) with hmany | hfew
    · right
      obtain ⟨ignored, hignored⟩ : ∃ ignored, body.count 0x2C = ignored + 1 + 1 :=
        ⟨body.count 0x2C - 2, by omega⟩
      have hsuccClient : body.count 0x2C + 1 + 1 = 3 + (ignored + 1) := by omega
      have hsuccOwn : body.count 0x2C + 1 = 2 + (ignored + 1) := by omega
      refine ⟨ignored + 1, Nat.succ_pos ignored, ?_, ?_⟩
      · rw [hclient, hsuccClient, surplusTraces_add _ _ (Nat.succ_pos ignored)]
        simp only [String.reduceAppend]
      · rw [hown, hsuccOwn, surplusTraces_add _ _ (Nat.succ_pos ignored)]
        simp only [String.reduceAppend]
    · left
      rw [surplusTraces_of_le _ (by omega), List.map_eq_nil_iff] at hclient hown
      exact ⟨hclient, hown⟩

/-- A client that ends in a cut-off character keeps the comma after it, and both lines have one
field too many. -/
theorem byteCounts_agree_illFormed :
    0x2C ∉ ([0xE2, 0x82] : Bytes) ∧
      Event.ofLine (Utf8.encode "BYTECOUNT_CLI:" ++ ([0xE2, 0x82] ++ 0x2C :: Utf8.encode "7,8,9"))
        = .byteCount ⟨true, "\uFFFD", 7, 8⟩ ∧
      (logOfLine
          (Utf8.encode "BYTECOUNT_CLI:" ++ ([0xE2, 0x82] ++ 0x2C :: Utf8.encode "7,8,9"))).length
        = (logOfLine (Utf8.encode "BYTECOUNT:" ++ Utf8.encode "7,8,9")).length := by
  have hcomma : 0x2C ∉ ([0xE2, 0x82] : Bytes) := by decide
  have htext : Utf8.decodeLossy [0xE2, 0x82] = "\uFFFD" := by decide
  have hown : Event.ofLine (Utf8.encode "BYTECOUNT:" ++ Utf8.encode "7,8,9")
      = .byteCount ⟨false, "", 7, 8⟩ := by decide
  obtain ⟨⟨bytesIn, bytesOut, hclient, hown'⟩, hlog⟩ :=
    byteCounts_agree [0xE2, 0x82] (Utf8.encode "7,8,9") hcomma
  rw [hown, Event.byteCount.injEq, ByteCount.mk.injEq] at hown'
  obtain ⟨-, -, rfl, rfl⟩ := hown'
  refine ⟨hcomma, htext ▸ hclient, ?_⟩
  rcases hlog with ⟨hnone, hnone'⟩ | ⟨ignored, -, hsome, hsome'⟩
  · rw [hnone, hnone']
  · rw [← List.length_map LogRecord.render, hsome, ← List.length_map LogRecord.render, hsome']
    rfl

end TunnelEvents
