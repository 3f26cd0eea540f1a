import ResponseExport.Proofs.Csv.Faults

/-!
# `ResponseExport.Proofs.Csv.Flushing`: when a writer flushes

A writer counts records up to the size of a batch, flushes, and counts again; at the end
it flushes once more. `Along` says how many flushes there were by then. What the sink held
at each of them is `marks`: the header and the records of whole batches. A record adds a
mark exactly if it completes a batch (`marks_concat`), and by induction a writer that has
written records has flushed at their marks (`flushes_writeFront`).

So `flushes_in_batches` is about every moment of a run: what is sent but not flushed is
one batch at most, and behind the last flush nothing is.
-/

set_option autoImplicit false

namespace ResponseExport.Csv

namespace Sink

variable {s s' : Sink} {bs : List UInt8}

/-- Taking bytes is no flush. -/
theorem flushes_afterCalls (s : Sink) (bs : List UInt8) (n : Nat) :
    (s.afterCalls bs n).flushes = s.flushes := by
  induction n generalizing s bs with
  | zero => rfl
  | succ n ih => exact ih _ _

theorem flushes_writeAll (s : Sink) (bs : List UInt8) : (s.writeAll bs).1.flushes = s.flushes := by
  obtain ⟨n, hn⟩ := exists_afterCalls s bs
  rw [hn, flushes_afterCalls]

theorem flushes_flush (h : s.flush = (s', .ok ())) :
    s'.data = s.data ∧ s'.flushes = s.flushes ++ [s.data.length] := by
  unfold flush at h
  split at h <;> cases h
  exact ⟨rfl, rfl⟩

/-- How much of what the sink holds is flushed. -/
def flushed (s : Sink) : Nat := s.flushes.getLast?.getD 0

end Sink

/-- The header of a file and the lines of its records. There is no header if the columns are not
known. -/
def written (config : Config) (schema : Schema) (records : List Record) : List UInt8 :=
  match headerOf schema records with
  | some columns => fileOf config columns records
  | none => []

namespace Writer

variable {ε : Type} {ofFault : SinkFault → ε} {config : Config} {schema : Schema} {sink : Sink}
  {w w' : Writer} {records : List Record}

/-- The calls that a file makes come to its header and lines. -/
theorem outputOf_fileCalls (config : Config) (schema : Schema) (records : List Record) :
    outputOf config schema (fileCalls records) = written config schema records := by
  rw [written]
  cases hheader : headerOf schema records with
  | some columns =>
      rw [← bytesOf_chunks_records (ε := Empty), (bytesOf_chunks config schema records hheader).1]
  | none =>
      -- Nothing is known of the columns, so there is no record that tells them.
      have hnone : headerAfter schema (fileCalls records) = none := by
        rw [headerAfter, recordsOf_fileCalls]
        exact hheader
      rw [outputOf, Encoder.run_new_of_none config hnone, flatten_silent]

theorem fileCalls_concat (records : List Record) (r : Record) :
    fileCalls (records ++ [r]) = fileCalls records ++ [.encode r] := by
  rw [fileCalls, List.map_append]
  rfl

/-- What is written of some records is the beginning of what is written of more. -/
theorem written_prefix (config : Config) (schema : Schema) {front records : List Record}
    (h : front <+: records) : written config schema front <+: written config schema records := by
  obtain ⟨back, rfl⟩ := h
  rw [← outputOf_fileCalls, ← outputOf_fileCalls, fileCalls, fileCalls, List.map_append]
  exact outputOf_append config schema (.start :: front.map .encode) (back.map .encode)

/-! ### Marks -/

/-- How much is written when whole batches of records are. -/
def marks (config : Config) (schema : Schema) (records : List Record) : List Nat :=
  (List.range (records.length / batchOf config)).map fun i =>
    (written config schema (records.take ((i + 1) * batchOf config))).length

theorem length_marks (config : Config) (schema : Schema) (records : List Record) :
    (marks config schema records).length = records.length / batchOf config := by
  rw [marks, List.length_map, List.length_range]

/-- Marks stay when records are added. -/
theorem marks_map_append (config : Config) (schema : Schema) (records more : List Record) :
    ((List.range (records.length / batchOf config)).map fun i =>
      (written config schema ((records ++ more).take ((i + 1) * batchOf config))).length)
      = marks config schema records := by
  refine List.map_congr_left fun i hi => ?_
  have hle : (i + 1) * batchOf config ≤ records.length :=
    (Nat.mul_le_mul_right _ (List.mem_range.mp hi)).trans (Nat.div_mul_le_self _ _)
  rw [List.take_append_of_le_length hle]

/-- A record that completes a batch adds a mark, and any other does not. -/
theorem marks_concat (config : Config) (schema : Schema) (records : List Record) (r : Record) :
    marks config schema (records ++ [r]) = marks config schema records ++
      if (records.length + 1) / batchOf config = records.length / batchOf config then []
      else [(written config schema (records ++ [r])).length] := by
  have hlength : (records ++ [r]).length = records.length + 1 := List.length_append
  have hb := batchOf_pos config
  by_cases hbatch : batchOf config ≤ records.length % batchOf config + 1
  · obtain ⟨hdiv, hmod⟩ := batch_complete hb hbatch
    have hall : (records.length / batchOf config + 1) * batchOf config = (records ++ [r]).length := by
      have hparts := Nat.div_add_mod (records.length + 1) (batchOf config)
      rw [hmod, hdiv, Nat.add_zero, Nat.mul_comm] at hparts
      rw [hparts, hlength]
    rw [if_neg (by omega), marks, hlength, hdiv, List.range_succ, List.map_append,
      List.map_singleton, hall, List.take_length, marks_map_append]
  · obtain ⟨hdiv, -⟩ := batch_incomplete (Nat.lt_of_not_le hbatch)
    rw [if_pos hdiv, List.append_nil, marks, hlength, hdiv, marks_map_append]

/-! ### Runs -/

/-- A record that is written may bring a flush of all that the sink holds by then. -/
theorem flushes_writeRecord {r : Record} (h : w.writeRecord r = (w', .ok ())) :
    w'.sink.flushes = w.sink.flushes ∨
      w'.sink.flushes = w.sink.flushes ++ [w'.sink.data.length] := by
  unfold writeRecord at h
  dsimp only at h
  split at h
  · cases h
  · rename_i sent hsend
    have hkept : sent.sink.flushes = w.sink.flushes := by
      unfold send at hsend
      split at hsend <;> cases hsend
      rename_i sink hsink
      have hflushes := Sink.flushes_writeAll w.sink (w.encoder.encode r).2
      rw [hsink] at hflushes
      exact hflushes
    split at h
    · unfold flush at h
      split at h <;> cases h
      rename_i sink hflush
      obtain ⟨hdata, hflushes⟩ := Sink.flushes_flush hflush
      dsimp only at hdata hflushes ⊢
      rw [hdata, hflushes, hkept]
      exact Or.inr rfl
    · cases h
      exact Or.inl hkept

/-- A writer that has come through records has flushed at their marks, whatever comes behind. -/
theorem flushes_writeFront (ofFault : SinkFault → ε) (hfresh : sink.IsFresh)
    (records : List Record) (hclear : ClearFor config schema sink (fileCalls records)) :
    ∃ w, Along config schema sink (fileCalls records) w ∧
      w.sink.flushes = marks config schema records ∧
      ∀ rest, (Writer.new config schema sink).writeFront ofFault (records.map .ok ++ rest)
        = w.writeRecords ofFault rest := by
  induction records using List.reverseRecOn with
  | nil =>
      obtain ⟨w, hw, hrest⟩ := along_writeFront ofFault hfresh [] hclear
      refine ⟨w, hw, ?_, hrest⟩
      have hnone : w.sink.flushes.length = 0 := hw.flushes_eq.trans (Nat.zero_div _)
      rw [List.eq_nil_of_length_eq_zero hnone, marks, List.length_nil, Nat.zero_div]
      rfl
  | append_singleton records r ih =>
      rw [fileCalls_concat] at hclear ⊢
      obtain ⟨w, hw, hmarks, hrest⟩ := ih hclear.of_append
      obtain ⟨w', hwrite, hw'⟩ := along_writeRecord hw hfresh.maxWrite_ne hclear
      refine ⟨w', hw', ?_, fun rest => ?_⟩
      · -- The number of flushes tells whether the record brought one.
        have hbefore := hw.flushes_eq
        have hafter := hw'.flushes_eq
        rw [recordsOf_concat_encode, recordsOf_fileCalls] at hafter
        rw [recordsOf_fileCalls] at hbefore
        rw [marks_concat, ← hmarks]
        rcases flushes_writeRecord hwrite with hsame | hmore
        · rw [if_pos (by rw [← hafter, ← hbefore, hsame]), List.append_nil, hsame]
        · have hone : w'.sink.flushes.length = w.sink.flushes.length + 1 := by
            rw [hmore, List.length_append, List.length_singleton]
          rw [if_neg (by omega), hmore, hw'.data_eq, ← fileCalls_concat, outputOf_fileCalls]
      · rw [List.map_append, List.append_assoc, hrest, List.map_singleton, List.singleton_append,
          writeRecords, hwrite]

/-- What the sink is at some moment of a run: inside a call, between records, or in the end. -/
inductive Reached (ofFault : SinkFault → ε) (w : Writer) (items : List (Except ε Record)) :
    Sink → Prop where
  | during {s : Sink} : Moment ofFault w items s → Reached ofFault w items s
  | between {front : List Record} {back : List (Except ε Record)} {w' : Writer} :
      items = front.map .ok ++ back → w.writeFront ofFault (front.map .ok) = (w', .ok ()) →
      Reached ofFault w items w'.sink
  | finished {w' : Writer} {result : Except ε Stats} :
      w.writeAll ofFault items = (w', result) → Reached ofFault w items w'.sink

/-- What a sink holds is a part of so many records, and all but a batch of them are flushed. -/
structure IsFlushedUpTo (config : Config) (schema : Schema) (records : List Record) (s : Sink)
    (flushed sent : Nat) : Prop where
  le : flushed ≤ sent
  sent_le : sent ≤ records.length
  /-- No more than one batch is sent but not flushed. -/
  within_batch : sent ≤ flushed + batchOf config
  /-- No more than this is sent. -/
  data_prefix : s.data <+: written config schema (records.take sent)
  /-- No less than this is flushed. -/
  flushed_eq : flushed ≠ 0 → s.flushed = (written config schema (records.take flushed)).length

/-- When a file is flushed. -/
structure FlushesInBatches (ofFault : SinkFault → ε) (config : Config) (schema : Schema)
    (sink : Sink) (records : List Record) (w : Writer) : Prop where
  /-- One flush for each whole batch, and the last one. -/
  count : w.sink.flushes.length = records.length / batchOf config + 1
  /-- A flush for a batch comes when the header and the records up to its end are written, and
  nothing else is. -/
  batch : ∀ i, 1 ≤ i → i ≤ records.length / batchOf config →
    w.sink.flushes[i - 1]?
        = some (written config schema (records.take (i * batchOf config))).length ∧
      written config schema (records.take (i * batchOf config)) <+: w.sink.data
  /-- The last flush comes when all is written, and leaves nothing behind. -/
  last : w.sink.data = written config schema records ∧ w.sink.flushed = w.sink.data.length
  /-- At any moment, a batch at most is written but not flushed. -/
  moment : ∀ s, Reached ofFault (Writer.new config schema sink) (records.map .ok) s →
    ∃ flushed sent, IsFlushedUpTo config schema records s flushed sent

theorem flushed_marks {s : Sink} {front : List Record} (h : s.flushes = marks config schema front)
    (hsome : front.length / batchOf config ≠ 0) :
    s.flushed = (written config schema
      (front.take (front.length / batchOf config * batchOf config))).length := by
  obtain ⟨k, hk⟩ := Nat.exists_eq_succ_of_ne_zero hsome
  rw [Sink.flushed, h, marks, hk, List.range_succ, List.map_append, List.map_singleton,
    List.getLast?_concat, Option.getD_some]

/-- While the line of a record is written, and before it is, no more than a batch is not flushed:
what comes before is whole batches, which are flushed, and less than one more. -/
theorem isFlushedUpTo_of_marks (front back : List Record) {s : Sink} {sent : Nat}
    (hflushes : s.flushes = marks config schema front) (hle : front.length ≤ sent)
    (hsent : sent ≤ front.length + 1) (hall : sent ≤ (front ++ back).length)
    (hdata : s.data <+: written config schema ((front ++ back).take sent)) :
    IsFlushedUpTo config schema (front ++ back) s
      (front.length / batchOf config * batchOf config) sent where
  le := (Nat.div_mul_le_self _ _).trans hle
  sent_le := hall
  within_batch := by
    have hparts := Nat.div_add_mod' front.length (batchOf config)
    have hless := Nat.mod_lt front.length (batchOf_pos config)
    omega
  data_prefix := hdata
  flushed_eq := by
    intro hsome
    rw [List.take_append_of_le_length (Nat.div_mul_le_self _ _)]
    exact flushed_marks hflushes (fun h => hsome (by rw [h, Nat.zero_mul]))

theorem ClearFor.of_fileCalls {front behind : List Record}
    (h : ClearFor config schema sink (fileCalls (front ++ behind))) :
    ClearFor config schema sink (fileCalls front) := by
  rw [fileCalls, List.map_append, ← List.cons_append] at h
  exact h.of_append

/-- What stands behind some of the records is the other records. -/
theorem exists_behind {front : List Record} {back : List (Except ε Record)}
    (h : records.map .ok = front.map .ok ++ back) :
    ∃ behind, records = front ++ behind ∧ back = behind.map .ok := by
  obtain ⟨front', behind, rfl, hfront, hbehind⟩ := List.map_eq_append_iff.mp h
  obtain rfl : front' = front := (List.map_inj_right fun _ _ => Except.ok.inj).mp hfront
  exact ⟨behind, rfl, hbehind.symm⟩

/-- A writer that has come through records is along with them, and has flushed at their marks. -/
theorem of_writeFront (hfresh : sink.IsFresh) {front : List Record}
    (hclear : ClearFor config schema sink (fileCalls front))
    (h : (Writer.new config schema sink).writeFront ofFault (front.map .ok) = (w, .ok ())) :
    Along config schema sink (fileCalls front) w ∧
      w.sink.flushes = marks config schema front := by
  obtain ⟨w', hw', hmarks, hrest⟩ := flushes_writeFront ofFault hfresh front hclear
  have hsame := hrest []
  rw [List.append_nil, h] at hsame
  obtain rfl : w = w' := congrArg Prod.fst hsame
  exact ⟨hw', hmarks⟩

/-- At any moment before the last flush, no more than a batch is not flushed. -/
theorem isFlushedUpTo_of_moment (hfresh : sink.IsFresh) {s : Sink}
    (hclear : ClearFor config schema sink (fileCalls records))
    (h : Moment ofFault (Writer.new config schema sink) (records.map .ok) s) :
    ∃ flushed sent, IsFlushedUpTo config schema records s flushed sent := by
  cases h with
  | header n =>
      have hpart := Sink.afterCalls_prefix sink (Encoder.new config schema).start.2 n
      have hhead : (Encoder.new config schema).start.2 <+: written config schema [] := by
        rw [← outputOf_fileCalls]
        exact List.prefix_append _ _
      rw [hfresh.data_eq, List.nil_append] at hpart
      refine ⟨_, 0, isFlushedUpTo_of_marks [] records ?_ (Nat.le_refl 0)
        (Nat.zero_le 1) (Nat.zero_le _) (hpart.trans hhead)⟩
      rw [Sink.flushes_afterCalls, marks, List.length_nil, Nat.zero_div]
      exact hfresh.flushes_eq
  | @record front r back w' n hitems hfront =>
      obtain ⟨behind, rfl, hbehind⟩ := exists_behind hitems
      obtain ⟨r', back', rfl, hr, -⟩ := List.map_eq_cons_iff.mp hbehind.symm
      obtain rfl := Except.ok.inj hr
      obtain ⟨hw', hmarks⟩ := of_writeFront hfresh hclear.of_fileCalls hfront
      have hpart := Sink.afterCalls_prefix w'.sink (w'.encoder.encode r').2 n
      have houtput := hw'.outputOf_concat (.encode r')
      rw [← fileCalls_concat, outputOf_fileCalls] at houtput
      refine ⟨_, front.length + 1, isFlushedUpTo_of_marks front (r' :: back') ?_
        (Nat.le_succ _) (Nat.le_refl _) ?_ ?_⟩
      · rw [Sink.flushes_afterCalls, hmarks]
      · rw [List.length_append, List.length_cons]
        omega
      · have htake : (front ++ r' :: back').take (front.length + 1) = front ++ [r'] := by
          rw [List.take_length_add_append]
          rfl
        rw [htake, houtput]
        exact hpart

/-- **Flushing.** Into a sink that fails at nothing, a writer flushes after every batch and once
more at the end. -/
theorem flushes_in_batches (ofFault : SinkFault → ε) (config : Config) (schema : Schema)
    (records : List Record) (hfresh : sink.IsFresh)
    (hclear : sink.IsClear (written config schema records).length
      (records.length / batchOf config + 1)) :
    ∃ w stats, (Writer.new config schema sink).writeAll ofFault (records.map .ok) = (w, .ok stats) ∧
      FlushesInBatches ofFault config schema sink records w := by
  have hfile : ClearFor config schema sink (fileCalls records) := by
    rw [ClearFor, outputOf_fileCalls, recordsOf_fileCalls]
    exact hclear.mono (Nat.le_refl _) (Nat.le_succ _)
  obtain ⟨w, hw, hmarks, hrest⟩ := flushes_writeFront ofFault hfresh records hfile
  have hfront := hrest []
  rw [List.append_nil] at hfront
  have hdata : w.sink.data = written config schema records := by
    rw [hw.data_eq, outputOf_fileCalls]
  have hcount : w.sink.flushes.length = records.length / batchOf config := by
    rw [hmarks, length_marks]
  -- The sink gets through the last flush, too.
  have hne : w.sink.failFlush ≠ some w.sink.flushes.length := by
    intro hfail
    have hlimit : w.sink.failFlush = sink.failFlush := by rw [hw.sink_eq]
    have hle := hclear.flushed _ (hlimit ▸ hfail)
    omega
  let done : Writer := { w with
    sink := { w.sink with flushes := w.sink.flushes ++ [w.sink.data.length] }
    sinceFlush := 0 }
  have hflush : w.flush = (done, .ok ()) := flush_of_ne hne
  have hall : (Writer.new config schema sink).writeAll ofFault (records.map .ok)
      = (done, .ok ⟨done.records, done.bytes, done.encoder.dropped⟩) := by
    rw [writeAll_of_ok hfront, finish, hflush]
  have hlast : done.sink.flushed = done.sink.data.length := by
    rw [Sink.flushed, List.getLast?_concat, Option.getD_some]
  refine ⟨done, _, hall, ?_, ?_, ⟨hdata, hlast⟩, ?_⟩
  · rw [List.length_append, List.length_singleton, hcount]
  · intro i hone hle
    constructor
    · have hlt : i - 1 < w.sink.flushes.length := by omega
      have hback : i - 1 + 1 = i := by omega
      rw [List.getElem?_append_left hlt, hmarks, marks, List.getElem?_map, List.getElem?_range
        (by omega), Option.map_some, hback]
    · show _ <+: w.sink.data
      rw [hdata]
      exact written_prefix config schema (List.take_prefix _ _)
  · intro s hs
    cases hs with
    | during hmoment => exact isFlushedUpTo_of_moment hfresh hfile hmoment
    | @between front back w' hitems hreached =>
        obtain ⟨behind, rfl, -⟩ := exists_behind hitems
        obtain ⟨hw', hmarks'⟩ := of_writeFront hfresh hfile.of_fileCalls hreached
        refine ⟨_, front.length, isFlushedUpTo_of_marks front _ hmarks' (Nat.le_refl _)
          (Nat.le_succ _) ?_ ?_⟩
        · rw [List.length_append]
          omega
        · rw [List.take_left, hw'.data_eq, outputOf_fileCalls]
    | finished hresult =>
        rw [hall] at hresult
        obtain ⟨rfl, -⟩ := Prod.mk.inj hresult
        refine ⟨records.length, records.length, Nat.le_refl _, Nat.le_refl _, Nat.le_add_right _ _,
          ?_, fun _ => ?_⟩
        · rw [List.take_length]
          exact hdata ▸ List.prefix_refl _
        · rw [List.take_length, hlast, ← hdata]

/-- Five records in batches of two, into a sink that takes three bytes at a time and has room for
no more than the file. -/
theorem flushes_in_batches_odd :
    let sink : Sink := { capacity := some 12, maxWrite := some 3 }
    let records : List Record := ["a", "b", "c", "d", "e"].map fun v => .ofList [("k", v)]
    sink.IsFresh ∧
      sink.IsClear (written { batchSize := 2 } .inferred records).length 3 ∧
      ∃ w stats, (Writer.new { batchSize := 2 } .inferred sink).writeAll SinkFault.message
          (records.map .ok) = (w, .ok stats) ∧
        w.sink.flushes.length = 3 ∧ w.sink.flushes[0]? = some 6 ∧ w.sink.flushes[1]? = some 10 ∧
        w.sink.flushed = 12 := by
  intro sink records
  have hfresh : sink.IsFresh := ⟨rfl, rfl, by decide⟩
  have hlength : (written { batchSize := 2 } .inferred records).length = 12 := by decide
  have hclear : sink.IsClear (written { batchSize := 2 } .inferred records).length 3 := by
    refine ⟨fun c hc => ?_, fun k hk => by cases hk⟩
    obtain rfl := Option.some.inj hc
    exact hlength.le
  have hbatches : records.length / batchOf { batchSize := 2 } + 1 = 3 := by decide
  obtain ⟨w, stats, hall, hflushes⟩ := flushes_in_batches SinkFault.message { batchSize := 2 }
    .inferred records hfresh (hbatches ▸ hclear)
  obtain ⟨hdata, hlast⟩ := hflushes.last
  refine ⟨hfresh, hclear, w, stats, hall, hflushes.count.trans hbatches, ?_, ?_, ?_⟩
  · rw [(hflushes.batch 1 (by decide) (by decide)).1]
    decide
  · rw [(hflushes.batch 2 (by decide) (by decide)).1]
    decide
  · rw [hlast, hdata, hlength]

end Writer

end ResponseExport.Csv
