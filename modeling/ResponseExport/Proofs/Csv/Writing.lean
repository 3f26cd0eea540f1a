import ResponseExport.Csv.Writer
import ResponseExport.Proofs.Csv.RoundTrip

/-!
# `ResponseExport.Proofs.Csv.Writing`: what a writer leaves in its sink

A writer sends the same bytes as the chunks of a download, but to a sink that may
take them piecemeal, and with flushes in between. `Writer.Wrote` says what the
sink holds and what is counted once the header and some records are written.
Every operation that succeeds keeps it (`wrote_begin`, `wrote_writeRecord`,
`wrote_finish`), whatever the sink's limits are, and so does a whole file
(`wrote_writeAll`).

A sink without limits refuses nothing (`Sink.IsLimitless`), and then every
operation does succeed: `writeRecords_limitless`, `writeAll_limitless`.
-/

set_option autoImplicit false

namespace ResponseExport.Csv

namespace Sink

/-- A sink that takes everything at once and fails no flush. -/
def IsLimitless (s : Sink) : Prop :=
  s.capacity = none ∧ s.maxWrite = none ∧ s.failFlush = none

/-- A sink that took bytes holds them behind what it held. -/
theorem data_writeAll {s s' : Sink} {bs : List UInt8} (h : s.writeAll bs = (s', .ok ())) :
    s'.data = s.data ++ bs := by
  fun_induction writeAll s bs with
  | case1 s bs hempty =>
      cases h
      rw [List.isEmpty_iff.mp hempty, List.append_nil]
  | case2 s bs _ hfull => cases h
  | case3 s bs _ _ hzero => cases h
  | case4 s bs _ _ _ ih => rw [ih h, List.append_assoc, List.take_append_drop]

theorem data_flush {s s' : Sink} (h : s.flush = (s', .ok ())) : s'.data = s.data := by
  unfold flush at h
  split at h <;> cases h
  rfl

theorem IsLimitless.writeAll {s : Sink} (h : s.IsLimitless) (bs : List UInt8) :
    s.writeAll bs = ({ s with data := s.data ++ bs }, .ok ()) := by
  obtain ⟨hcapacity, hmaxWrite, -⟩ := h
  have haccepts : s.accepts bs.length = bs.length := by
    rw [accepts, hcapacity, hmaxWrite]
  have hroom : s.isFull = false := by
    rw [isFull, hcapacity]
  cases bs with
  | nil => rw [Sink.writeAll, List.append_nil]; rfl
  | cons b bs =>
      rw [Sink.writeAll, haccepts, hroom, List.take_length, List.drop_length, Sink.writeAll]
      rfl

theorem IsLimitless.flush {s : Sink} (h : s.IsLimitless) :
    s.flush = ({ s with flushes := s.flushes ++ [s.data.length] }, .ok ()) := by
  rw [Sink.flush, h.2.2]
  rfl

end Sink

namespace Writer

variable {ε : Type} {ofFault : SinkFault → ε} {config : Config} {columns : List String}
  {records : List Record} {w w' : Writer}

/-- The header and these records are written. -/
structure Wrote (config : Config) (columns : List String) (records : List Record)
    (w : Writer) : Prop where
  config_eq : w.encoder.config = config
  header_eq : w.encoder.header = some columns
  data_eq : w.sink.data = fileOf config columns records
  records_eq : w.records = records.length
  bytes_eq : w.bytes = (fileOf config columns records).length

theorem send_eq_ok {bs : List UInt8} (h : w.send bs = (w', .ok ())) :
    w'.sink.data = w.sink.data ++ bs ∧
      w' = { w with sink := w'.sink, bytes := w.bytes + bs.length } := by
  unfold send at h
  split at h
  · rename_i sink hsink
    cases h
    exact ⟨Sink.data_writeAll hsink, rfl⟩
  · cases h

theorem flush_eq_ok (h : w.flush = (w', .ok ())) :
    w'.sink.data = w.sink.data ∧ w' = { w with sink := w'.sink, sinceFlush := 0 } := by
  unfold flush at h
  split at h
  · rename_i sink hsink
    cases h
    exact ⟨Sink.data_flush hsink, rfl⟩
  · cases h

/-- A flush changes nothing that was written. -/
theorem wrote_flush (h : Wrote config columns records w) (hflush : w.flush = (w', .ok ())) :
    Wrote config columns records w' := by
  obtain ⟨hdata, hw'⟩ := flush_eq_ok hflush
  rw [hw']
  exact ⟨h.config_eq, h.header_eq, hdata.trans h.data_eq, h.records_eq, h.bytes_eq⟩

theorem fileOf_concat (config : Config) (columns : List String) (records : List Record)
    (r : Record) : fileOf config columns (records ++ [r])
      = fileOf config columns records ++ config.dialect.line (rowOf columns r) := by
  simp [fileOf, tableOf]

theorem fileOf_nil (config : Config) (columns : List String) :
    fileOf config columns [] = headOf config columns := by
  simp [fileOf, tableOf, headOf]

/-- Before the first record, the header is written. -/
theorem wrote_begin {sink : Sink} (hsink : sink.data = [])
    (h : (Writer.new config (.fixed columns) sink).begin ofFault = (w, .ok ())) :
    Wrote config columns [] w := by
  have hstart : (Writer.new config (.fixed columns) sink).encoder.start
      = ({ Encoder.new config (.fixed columns) with header := some columns },
        headOf config columns) := rfl
  rw [begin, hstart] at h
  dsimp only at h
  split at h
  · rename_i sent hsend
    cases h
    obtain ⟨hdata, hw⟩ := send_eq_ok hsend
    rw [hw]
    exact {
      config_eq := rfl
      header_eq := rfl
      data_eq := by
        rw [hdata, fileOf_nil]
        exact congrArg (· ++ _) hsink
      records_eq := rfl
      bytes_eq := by
        rw [fileOf_nil]
        exact Nat.zero_add _ }
  · cases h

/-- A record adds its line. -/
theorem wrote_writeRecord (h : Wrote config columns records w) {r : Record}
    (hr : w.writeRecord r = (w', .ok ())) : Wrote config columns (records ++ [r]) w' := by
  -- The header is there, so the record is a line and nothing else.
  have hencode : w.encoder.encode r = ((w.encoder.writeRecord columns r).1,
      config.dialect.line (rowOf columns r)) := by
    rw [Encoder.encode, h.header_eq, ← h.config_eq, ← lineOf_eq]
    rfl
  rw [writeRecord, hencode] at hr
  dsimp only at hr
  split at hr
  · cases hr
  · rename_i sent hsend
    obtain ⟨hdata, hsent⟩ := send_eq_ok hsend
    have hwrote : Wrote config columns (records ++ [r])
        { sent with records := sent.records + 1, sinceFlush := sent.sinceFlush + 1 } := by
      rw [hsent]
      exact {
        config_eq := h.config_eq
        header_eq := h.header_eq
        data_eq := by
          rw [fileOf_concat, ← h.data_eq]
          exact hdata
        records_eq := by
          rw [List.length_append, ← h.records_eq]
          rfl
        bytes_eq := by
          rw [fileOf_concat, List.length_append, ← h.bytes_eq] }
    -- If the record completes a batch there is a flush, which changes nothing of this.
    split at hr
    · exact wrote_flush hwrote hr
    · cases hr
      exact hwrote

/-- Records add their lines, one by one. -/
theorem wrote_writeRecords (h : Wrote config columns records w) (more : List Record)
    (hmore : w.writeRecords ofFault (more.map .ok) = (w', .ok ())) :
    Wrote config columns (records ++ more) w' := by
  induction more generalizing records w with
  | nil =>
      cases hmore
      rwa [List.append_nil]
  | cons r more ih =>
      rw [List.map_cons, writeRecords] at hmore
      split at hmore
      · rename_i written hr
        have hrest := ih (wrote_writeRecord h hr) hmore
        rwa [List.append_assoc] at hrest
      · cases hmore

/-- The figures at the end count what was written. -/
theorem wrote_finish (h : Wrote config columns records w) {stats : Stats}
    (hfinish : w.finish ofFault = (w', .ok stats)) :
    w'.sink.data = fileOf config columns records ∧ stats.records = records.length ∧
      stats.bytes = (fileOf config columns records).length := by
  unfold finish at hfinish
  split at hfinish
  · rename_i flushed hflush
    cases hfinish
    have hwrote := wrote_flush h hflush
    exact ⟨hwrote.data_eq, hwrote.records_eq, hwrote.bytes_eq⟩
  · cases hfinish

/-- **A written file.** If a writer gets through, an empty sink holds the whole file, and
the figures count it. -/
theorem wrote_writeAll {sink : Sink} (hsink : sink.data = []) {stats : Stats}
    (h : (Writer.new config (.fixed columns) sink).writeAll ofFault (records.map .ok)
      = (w, .ok stats)) :
    w.sink.data = fileOf config columns records ∧ stats.records = records.length ∧
      stats.bytes = (fileOf config columns records).length := by
  unfold writeAll at h
  split at h
  · cases h
  · rename_i begun hbegin
    split at h
    · cases h
    · rename_i written hwritten
      exact wrote_finish (wrote_writeRecords (wrote_begin hsink hbegin) records hwritten) h

/-! ### Sinks without limits -/

theorem send_limitless (h : w.sink.IsLimitless) (bs : List UInt8) :
    ∃ w', w.send bs = (w', .ok ()) ∧ w'.sink.IsLimitless := by
  let sink : Sink := { w.sink with data := w.sink.data ++ bs }
  refine ⟨{ w with sink, bytes := w.bytes + bs.length }, ?_, h⟩
  rw [send, h.writeAll]

theorem flush_limitless (h : w.sink.IsLimitless) :
    ∃ w', w.flush = (w', .ok ()) ∧ w'.sink.IsLimitless := by
  let sink : Sink := { w.sink with flushes := w.sink.flushes ++ [w.sink.data.length] }
  refine ⟨{ w with sink, sinceFlush := 0 }, ?_, h⟩
  rw [flush, h.flush]

theorem begin_limitless (ofFault : SinkFault → ε) (h : w.sink.IsLimitless) :
    ∃ w', w.begin ofFault = (w', .ok ()) ∧ w'.sink.IsLimitless := by
  rcases hstart : w.encoder.start with ⟨encoder, head⟩
  obtain ⟨sent, hsend, hsent⟩ := send_limitless (w := { w with encoder }) h head
  refine ⟨sent, ?_, hsent⟩
  rw [begin, hstart]
  dsimp only
  rw [hsend]

theorem writeRecord_limitless (h : w.sink.IsLimitless) (r : Record) :
    ∃ w', w.writeRecord r = (w', .ok ()) ∧ w'.sink.IsLimitless := by
  rcases hencode : w.encoder.encode r with ⟨encoder, bs⟩
  obtain ⟨sent, hsend, hsent⟩ := send_limitless (w := { w with encoder }) h bs
  rw [writeRecord, hencode]
  dsimp only
  rw [hsend]
  dsimp only
  split
  · exact flush_limitless hsent
  · exact ⟨_, rfl, hsent⟩

theorem writeRecords_limitless (ofFault : SinkFault → ε) (h : w.sink.IsLimitless)
    (records : List Record) :
    ∃ w', w.writeRecords ofFault (records.map .ok) = (w', .ok ()) ∧ w'.sink.IsLimitless := by
  induction records generalizing w with
  | nil => exact ⟨w, rfl, h⟩
  | cons r records ih =>
      obtain ⟨written, hr, hwritten⟩ := writeRecord_limitless h r
      rw [List.map_cons, writeRecords, hr]
      exact ih hwritten

theorem finish_limitless (ofFault : SinkFault → ε) (h : w.sink.IsLimitless) :
    ∃ w' stats, w.finish ofFault = (w', .ok stats) := by
  obtain ⟨flushed, hflush, -⟩ := flush_limitless h
  refine ⟨flushed, ⟨flushed.records, flushed.bytes, flushed.encoder.dropped⟩, ?_⟩
  rw [finish, hflush]

/-- Into a sink without limits, a writer always gets through. -/
theorem writeAll_limitless (ofFault : SinkFault → ε) (h : w.sink.IsLimitless)
    (records : List Record) :
    ∃ w' stats, w.writeAll ofFault (records.map .ok) = (w', .ok stats) := by
  obtain ⟨begun, hbegin, hbegun⟩ := begin_limitless ofFault h
  obtain ⟨written, hrecords, hwritten⟩ := writeRecords_limitless ofFault hbegun records
  rw [writeAll, hbegin]
  dsimp only
  rw [hrecords]
  exact finish_limitless ofFault hwritten

end Writer

end ResponseExport.Csv
