import ResponseExport.Proofs.Csv.Calls
import ResponseExport.Proofs.Csv.Writing

/-!
# `ResponseExport.Proofs.Csv.Faults`: a writer whose source or sink fails

A writer and a download drive the same encoder, so they come to the same bytes. But a
writer has a sink, which takes bytes piecemeal (`Sink.afterCalls`), can be full, and can
fail a flush, and either of them ends with the first error of the source.

`Sink.IsClear` says that a sink gets through so many bytes and flushes. A writer that is
`Along` has made some calls of the encoder and sent all that came of them. If its sink is
clear for one more call, it is along with that as well (`along_begin`, `along_writeRecord`),
and if not, it stops, with a part of what came of it sent (`begin_fault`,
`writeRecord_fault`). By induction a writer gets through records exactly if its sink is
clear for them (`along_writeFront`, `writeFront_fault`), and `writes_the_download` takes
the cases together: the items are records, or records and an error behind them.
-/

set_option autoImplicit false

namespace ResponseExport.Csv

namespace Sink

variable {s : Sink} {bs : List UInt8}

/-- The sink behind `n` calls that offer what is left of the bytes. -/
def afterCalls (s : Sink) (bs : List UInt8) : Nat → Sink
  | 0 => s
  | n + 1 =>
    afterCalls { s with data := s.data ++ bs.take (s.accepts bs.length) }
      (bs.drop (s.accepts bs.length)) n

/-- Whatever a sink holds in between is a part of what it is to hold. -/
theorem afterCalls_prefix (s : Sink) (bs : List UInt8) (n : Nat) :
    (s.afterCalls bs n).data <+: s.data ++ bs := by
  induction n generalizing s bs with
  | zero => exact List.prefix_append _ _
  | succ n ih =>
      have hrest := ih { s with data := s.data ++ bs.take (s.accepts bs.length) }
        (bs.drop (s.accepts bs.length))
      rwa [List.append_assoc, List.take_append_drop] at hrest

/-- Offering bytes until they are taken, or refused, is a number of calls. -/
theorem exists_afterCalls (s : Sink) (bs : List UInt8) :
    ∃ n, (s.writeAll bs).1 = s.afterCalls bs n := by
  fun_induction writeAll s bs with
  | case1 s bs hempty => exact ⟨0, rfl⟩
  | case2 s bs _ hfull => exact ⟨0, rfl⟩
  | case3 s bs _ _ hzero => exact ⟨0, rfl⟩
  | case4 s bs _ _ _ ih =>
      obtain ⟨n, hn⟩ := ih
      exact ⟨n + 1, hn⟩

/-- So many bytes in all are no more than the sink takes. -/
def Fits (s : Sink) (bytes : Nat) : Prop := ∀ c, s.capacity = some c → bytes ≤ c

/-- The sink takes `n` more bytes. -/
def HasRoom (s : Sink) (n : Nat) : Prop := s.Fits (s.data.length + n)

/-- A sink never takes more than it has room for. -/
theorem HasRoom.accepts (h : s.HasRoom 0) (n : Nat) : s.HasRoom (s.accepts n) := by
  intro c hc
  have hroom := h c hc
  have haccepts : s.accepts n ≤ c - s.data.length := by
    rw [Sink.accepts, hc]
    exact Nat.min_le_right _ _
  omega

/-- A sink that is not full takes something. -/
theorem accepts_pos (hmax : s.maxWrite ≠ some 0) (hfull : s.isFull = false) {n : Nat}
    (hn : 0 < n) : 0 < s.accepts n := by
  have hcall : ∀ m, s.maxWrite = some m → 0 < m := fun m hm =>
    Nat.pos_of_ne_zero fun hzero => hmax (hzero ▸ hm)
  have hroom : ∀ c, s.capacity = some c → 0 < c - s.data.length := by
    intro c hc
    rw [isFull, hc] at hfull
    exact Nat.sub_pos_of_lt (Nat.lt_of_not_le (of_decide_eq_false hfull))
  unfold accepts
  cases hm : s.maxWrite with
  | none =>
      cases hc : s.capacity with
      | none => exact hn
      | some c => exact Nat.lt_min.mpr ⟨hn, hroom c hc⟩
  | some m =>
      have hmin : 0 < min n m := Nat.lt_min.mpr ⟨hn, hcall m hm⟩
      cases hc : s.capacity with
      | none => exact hmin
      | some c => exact Nat.lt_min.mpr ⟨hmin, hroom c hc⟩

/-- A sink that has room takes everything, in however many calls. -/
theorem writeAll_of_hasRoom (hmax : s.maxWrite ≠ some 0) (h : s.HasRoom bs.length) :
    s.writeAll bs = ({ s with data := s.data ++ bs }, .ok ()) := by
  fun_induction writeAll s bs with
  | case1 s bs hempty => rw [List.isEmpty_iff.mp hempty, List.append_nil]
  | case2 s bs hne hfull =>
      -- A full sink has no room for even one byte.
      have hpos : 0 < bs.length := List.length_pos_iff.mpr fun hnil => hne (hnil ▸ rfl)
      cases hc : s.capacity with
      | none =>
          rw [isFull, hc] at hfull
          cases hfull
      | some c =>
          have hroom := h c hc
          rw [isFull, hc] at hfull
          have hle : c ≤ s.data.length := of_decide_eq_true hfull
          omega
  | case3 s bs hne hfull hzero =>
      have hpos : 0 < bs.length := List.length_pos_iff.mpr fun hnil => hne (hnil ▸ rfl)
      exact absurd hzero (accepts_pos hmax (Bool.eq_false_iff.mpr hfull) hpos).ne'
  | case4 s bs _ _ _ ih =>
      rw [ih hmax, List.append_assoc, List.take_append_drop]
      intro c hc
      have hroom := h c hc
      simp only [List.length_append, List.length_take, List.length_drop]
      omega

/-- A sink without room is full in the end. -/
theorem writeAll_of_not_hasRoom (hmax : s.maxWrite ≠ some 0) (hsound : s.HasRoom 0)
    (h : ¬ s.HasRoom bs.length) : ∃ s', s.writeAll bs = (s', .error .full) := by
  fun_induction writeAll s bs with
  | case1 s bs hempty =>
      rw [List.isEmpty_iff.mp hempty] at h
      exact absurd hsound h
  | case2 s bs _ hfull => exact ⟨s, rfl⟩
  | case3 s bs hne hfull hzero =>
      have hpos : 0 < bs.length := List.length_pos_iff.mpr fun hnil => hne (hnil ▸ rfl)
      exact absurd hzero (accepts_pos hmax (Bool.eq_false_iff.mpr hfull) hpos).ne'
  | case4 s bs _ _ _ ih =>
      refine ih hmax (fun c hc => ?_) fun hroom => h fun c hc => ?_
      · have hroom := hsound.accepts bs.length c hc
        simp only [List.length_append, List.length_take]
        omega
      · have hroom := hroom c hc
        simp only [List.length_append, List.length_take, List.length_drop] at hroom
        omega

/-- A sink gets through so many bytes, and so many flushes, from the beginning. -/
structure IsClear (s : Sink) (bytes flushes : Nat) : Prop where
  room : s.Fits bytes
  flushed : ∀ k, s.failFlush = some k → flushes ≤ k

/-- Nothing happened to the sink yet, and it takes at least a byte at a time. -/
structure IsFresh (s : Sink) : Prop where
  data_eq : s.data = []
  flushes_eq : s.flushes = []
  maxWrite_ne : s.maxWrite ≠ some 0

theorem IsClear.mono {bytes bytes' flushes flushes' : Nat} (h : s.IsClear bytes' flushes')
    (hbytes : bytes ≤ bytes') (hflushes : flushes ≤ flushes') : s.IsClear bytes flushes :=
  ⟨fun c hc => hbytes.trans (h.room c hc), fun k hk => hflushes.trans (h.flushed k hk)⟩

end Sink

/-! ### Batches -/

/-- The record that completes a batch. -/
theorem batch_complete {b n : Nat} (hb : 0 < b) (h : b ≤ n % b + 1) :
    (n + 1) / b = n / b + 1 ∧ (n + 1) % b = 0 := by
  have hlt := Nat.mod_lt n hb
  have heq : n + 1 = b * (n / b + 1) := by
    have := Nat.div_add_mod n b
    rw [Nat.mul_add, Nat.mul_one]
    omega
  rw [heq, Nat.mul_div_cancel_left _ hb, Nat.mul_mod_right]
  exact ⟨rfl, rfl⟩

/-- A record that does not. -/
theorem batch_incomplete {b n : Nat} (h : n % b + 1 < b) :
    (n + 1) / b = n / b ∧ (n + 1) % b = n % b + 1 := by
  have heq : n + 1 = b * (n / b) + (n % b + 1) := by
    have := Nat.div_add_mod n b
    omega
  constructor
  · rw [heq, Nat.mul_add_div (by omega), Nat.div_eq_of_lt h, Nat.add_zero]
  · rw [heq, Nat.mul_add_mod, Nat.mod_eq_of_lt h]

/-- All that comes of calls. -/
def outputOf (config : Config) (schema : Schema) (calls : List Call) : List UInt8 :=
  ((Encoder.new config schema).run calls).2.flatten

theorem outputOf_append (config : Config) (schema : Schema) (calls more : List Call) :
    outputOf config schema calls <+: outputOf config schema (calls ++ more) := by
  rw [outputOf, outputOf, Encoder.run_append, List.flatten_append]
  exact List.prefix_append _ _

theorem outputOf_concat (config : Config) (schema : Schema) (calls : List Call) (c : Call) :
    outputOf config schema (calls ++ [c])
      = outputOf config schema calls
        ++ (((Encoder.new config schema).run calls).1.call c).2 := by
  rw [outputOf, Encoder.run_concat, List.flatten_append, List.flatten_singleton]
  rfl

theorem config_run (config : Config) (schema : Schema) (calls : List Call) :
    ((Encoder.new config schema).run calls).1.config = config := by
  cases h : headerAfter schema calls with
  | none =>
      rw [Encoder.run_new_of_none config h]
      rfl
  | some columns =>
      obtain ⟨_, _, _, _, _, _, hrun⟩ := Encoder.run_new_of_some config h
      rw [hrun]

namespace Writer

variable {ε : Type} {ofFault : SinkFault → ε} {config : Config} {schema : Schema} {sink : Sink}
  {calls : List Call} {w w' : Writer}

/-- The number of records that are flushed at once. -/
def batchOf (config : Config) : Nat := max config.batchSize 1

theorem batchOf_pos (config : Config) : 0 < batchOf config := Nat.le_max_right _ _

/-- The sink gets through all that comes of calls, and through a flush for every batch. -/
def ClearFor (config : Config) (schema : Schema) (sink : Sink) (calls : List Call) : Prop :=
  sink.IsClear (outputOf config schema calls).length ((recordsOf calls).length / batchOf config)

/-- The writer has made these calls of its encoder, and sent and flushed what came of them. -/
structure Along (config : Config) (schema : Schema) (sink : Sink) (calls : List Call)
    (w : Writer) : Prop where
  encoder_eq : w.encoder = ((Encoder.new config schema).run calls).1
  sink_eq : w.sink
    = { sink with data := outputOf config schema calls, flushes := w.sink.flushes }
  records_eq : w.records = (recordsOf calls).length
  bytes_eq : w.bytes = (outputOf config schema calls).length
  sinceFlush_eq : w.sinceFlush = (recordsOf calls).length % batchOf config
  flushes_eq : w.sink.flushes.length = (recordsOf calls).length / batchOf config

theorem along_new (config : Config) (schema : Schema) (hfresh : sink.IsFresh) :
    Along config schema sink [] (Writer.new config schema sink) where
  encoder_eq := rfl
  sink_eq := by
    rw [show outputOf config schema [] = sink.data from hfresh.data_eq.symm]
    rfl
  records_eq := rfl
  bytes_eq := rfl
  sinceFlush_eq := (Nat.zero_mod _).symm
  flushes_eq := by
    show sink.flushes.length = _
    rw [hfresh.flushes_eq]
    exact (Nat.zero_div _).symm

namespace Along

theorem data_eq (h : Along config schema sink calls w) :
    w.sink.data = outputOf config schema calls :=
  congrArg Sink.data h.sink_eq

theorem maxWrite_ne (h : Along config schema sink calls w) (hmax : sink.maxWrite ≠ some 0) :
    w.sink.maxWrite ≠ some 0 := by
  rwa [h.sink_eq]

theorem hasRoom_iff (h : Along config schema sink calls w) (n : Nat) :
    w.sink.HasRoom n ↔ sink.Fits ((outputOf config schema calls).length + n) := by
  rw [Sink.HasRoom, h.sink_eq]
  rfl

theorem outputOf_concat (h : Along config schema sink calls w) (c : Call) :
    outputOf config schema (calls ++ [c])
      = w.sink.data ++ (w.encoder.call c).2 := by
  rw [h.data_eq, h.encoder_eq, Csv.outputOf_concat]

theorem hasRoom_call_iff (h : Along config schema sink calls w) (c : Call) :
    w.sink.HasRoom (w.encoder.call c).2.length ↔
      sink.Fits (outputOf config schema (calls ++ [c])).length := by
  rw [h.hasRoom_iff, h.outputOf_concat, List.length_append, h.data_eq]

/-- What comes of one more call is sent if there is room for it. -/
theorem send_eq (h : Along config schema sink calls w) (hmax : sink.maxWrite ≠ some 0) (c : Call)
    (hroom : sink.Fits (outputOf config schema (calls ++ [c])).length) :
    ({ w with encoder := (w.encoder.call c).1 } : Writer).send (w.encoder.call c).2
      = ({ w with
            encoder := ((Encoder.new config schema).run (calls ++ [c])).1
            sink := { w.sink with data := outputOf config schema (calls ++ [c]) }
            bytes := (outputOf config schema (calls ++ [c])).length }, .ok ()) := by
  rw [send, Sink.writeAll_of_hasRoom (h.maxWrite_ne hmax) ((h.hasRoom_call_iff c).mpr hroom)]
  rw [h.outputOf_concat, List.length_append, h.data_eq, ← h.bytes_eq, Encoder.run_concat,
    ← h.encoder_eq]

/-- If there is no room for it, a part of it is sent. -/
theorem send_fault (h : Along config schema sink calls w) (hmax : sink.maxWrite ≠ some 0)
    (hclear : ClearFor config schema sink calls) (c : Call)
    (hroom : ¬ sink.Fits (outputOf config schema (calls ++ [c])).length) :
    ∃ sent, ({ w with encoder := (w.encoder.call c).1 } : Writer).send (w.encoder.call c).2
        = (sent, .error .full) ∧ sent.sink.data <+: outputOf config schema (calls ++ [c]) := by
  have hsound : w.sink.HasRoom 0 := (h.hasRoom_iff 0).mpr hclear.room
  obtain ⟨s, hs⟩ := Sink.writeAll_of_not_hasRoom (h.maxWrite_ne hmax) hsound
    (mt (h.hasRoom_call_iff c).mp hroom)
  refine ⟨{ w with encoder := (w.encoder.call c).1, sink := s }, ?_, ?_⟩
  · rw [send, hs]
  · obtain ⟨n, hn⟩ := Sink.exists_afterCalls w.sink (w.encoder.call c).2
    rw [hs] at hn
    have hpart : s = w.sink.afterCalls (w.encoder.call c).2 n := hn
    rw [h.outputOf_concat, hpart]
    exact Sink.afterCalls_prefix ..

end Along

/-! ### The header -/

theorem begin_of_send {result : Except SinkFault Unit}
    (h : ({ w with encoder := w.encoder.start.1 } : Writer).send w.encoder.start.2 = (w', result)) :
    w.begin ofFault = (w', result.mapError ofFault) := by
  rcases hstart : w.encoder.start with ⟨encoder, head⟩
  rw [hstart] at h
  rw [begin, hstart]
  dsimp only at h ⊢
  rw [h]
  cases result <;> rfl

/-- The header is sent if there is room for it. -/
theorem along_begin (ofFault : SinkFault → ε) (hfresh : sink.IsFresh)
    (hclear : ClearFor config schema sink [.start]) :
    ∃ w, (Writer.new config schema sink).begin ofFault = (w, .ok ()) ∧
      Along config schema sink [.start] w := by
  have hnew := along_new config schema hfresh
  have hsend := hnew.send_eq hfresh.maxWrite_ne .start hclear.room
  exact ⟨_, begin_of_send hsend, rfl, rfl, rfl, rfl, hnew.sinceFlush_eq, hnew.flushes_eq⟩

/-- If there is not, a part of it is sent. -/
theorem begin_fault (ofFault : SinkFault → ε) (hfresh : sink.IsFresh)
    (hclear : ¬ ClearFor config schema sink [.start]) :
    ∃ w, (Writer.new config schema sink).begin ofFault = (w, .error (ofFault .full)) ∧
      w.sink.data <+: outputOf config schema [.start] := by
  have hnew := along_new config schema hfresh
  -- No record is written, so it is not for a flush.
  have hroom : ¬ sink.Fits (outputOf config schema ([] ++ [.start])).length := fun hroom =>
    hclear ⟨hroom, fun k _ => (Nat.zero_div _).le.trans (Nat.zero_le k)⟩
  have hbefore : ClearFor config schema sink [] :=
    ⟨fun c _ => Nat.zero_le c, fun k _ => (Nat.zero_div _).le.trans (Nat.zero_le k)⟩
  obtain ⟨sent, hsend, hprefix⟩ := hnew.send_fault hfresh.maxWrite_ne hbefore .start hroom
  exact ⟨sent, begin_of_send hsend, hprefix⟩

/-! ### A record -/

theorem writeRecord_of_send {r : Record}
    (h : ({ w with encoder := (w.encoder.encode r).1 } : Writer).send (w.encoder.encode r).2
      = (w', .ok ())) :
    w.writeRecord r
      = if w'.encoder.config.batchSize ≤ w'.sinceFlush + 1 then
          ({ w' with records := w'.records + 1, sinceFlush := w'.sinceFlush + 1 } : Writer).flush
        else ({ w' with records := w'.records + 1, sinceFlush := w'.sinceFlush + 1 }, .ok ()) := by
  rcases hencode : w.encoder.encode r with ⟨encoder, bs⟩
  rw [hencode] at h
  rw [writeRecord, hencode]
  dsimp only at h ⊢
  rw [h]

theorem writeRecord_of_send_fault {r : Record} {f : SinkFault}
    (h : ({ w with encoder := (w.encoder.encode r).1 } : Writer).send (w.encoder.encode r).2
      = (w', .error f)) : w.writeRecord r = (w', .error f) := by
  rcases hencode : w.encoder.encode r with ⟨encoder, bs⟩
  rw [hencode] at h
  rw [writeRecord, hencode]
  dsimp only at h ⊢
  rw [h]

theorem flush_of_ne (h : w.sink.failFlush ≠ some w.sink.flushes.length) :
    w.flush = ({ w with
      sink := { w.sink with flushes := w.sink.flushes ++ [w.sink.data.length] }
      sinceFlush := 0 }, .ok ()) := by
  rw [flush, Sink.flush, if_neg h]

theorem flush_of_eq (h : w.sink.failFlush = some w.sink.flushes.length) :
    w.flush = (w, .error .flushFailed) := by
  rw [flush, Sink.flush, if_pos h]

theorem recordsOf_concat_encode (calls : List Call) (r : Record) :
    (recordsOf (calls ++ [.encode r])).length = (recordsOf calls).length + 1 := by
  rw [recordsOf, List.filterMap_append, List.length_append]
  rfl

/-- A batch is complete when there are as many records as it is to have. A batch of no records
is one of one record. -/
theorem completes_iff (config : Config) (n : Nat) :
    config.batchSize ≤ n + 1 ↔ batchOf config ≤ n + 1 := by
  rw [batchOf, Nat.max_le]
  exact (and_iff_left (Nat.le_add_left 1 n)).symm

/-- Behind a record there is one more of them, in the batch or flushed. -/
theorem Along.concat_encode (h : Along config schema sink calls w) (r : Record)
    {flushes : List Nat} {n : Nat}
    (hn : n = ((recordsOf calls).length + 1) % batchOf config)
    (hflushes : flushes.length = ((recordsOf calls).length + 1) / batchOf config) :
    Along config schema sink (calls ++ [.encode r])
      { encoder := ((Encoder.new config schema).run (calls ++ [.encode r])).1
        sink := { w.sink with data := outputOf config schema (calls ++ [.encode r]), flushes }
        records := w.records + 1
        bytes := (outputOf config schema (calls ++ [.encode r])).length
        sinceFlush := n } where
  encoder_eq := rfl
  sink_eq := by rw [h.sink_eq]
  records_eq := by rw [recordsOf_concat_encode, ← h.records_eq]
  bytes_eq := rfl
  sinceFlush_eq := by rw [recordsOf_concat_encode, hn]
  flushes_eq := by rw [recordsOf_concat_encode, hflushes]

/-- A record is written if the sink gets through it. -/
theorem along_writeRecord (h : Along config schema sink calls w) (hmax : sink.maxWrite ≠ some 0)
    {r : Record} (hclear : ClearFor config schema sink (calls ++ [.encode r])) :
    ∃ w', w.writeRecord r = (w', .ok ()) ∧
      Along config schema sink (calls ++ [.encode r]) w' := by
  have hwrite := writeRecord_of_send (h.send_eq hmax (.encode r) hclear.room)
  dsimp only at hwrite
  rw [config_run, h.sinceFlush_eq] at hwrite
  by_cases hbatch : batchOf config ≤ (recordsOf calls).length % batchOf config + 1
  · -- The record completes a batch, and the flush is one that the sink gets through.
    obtain ⟨hdiv, hmod⟩ := batch_complete (batchOf_pos config) hbatch
    have hflush : w.sink.failFlush ≠ some w.sink.flushes.length := by
      intro hfail
      have hlimit : w.sink.failFlush = sink.failFlush := by rw [h.sink_eq]
      have hle := hclear.flushed _ (hlimit ▸ hfail)
      rw [recordsOf_concat_encode, hdiv, ← h.flushes_eq] at hle
      exact Nat.not_succ_le_self _ hle
    rw [if_pos ((completes_iff config _).mpr hbatch)] at hwrite
    refine ⟨_, hwrite.trans (flush_of_ne hflush), h.concat_encode r hmod.symm ?_⟩
    rw [hdiv, ← h.flushes_eq]
    exact List.length_append
  · obtain ⟨hdiv, hmod⟩ := batch_incomplete (Nat.lt_of_not_le hbatch)
    rw [if_neg (mt (completes_iff config _).mp hbatch)] at hwrite
    exact ⟨_, hwrite, h.concat_encode r hmod.symm (h.flushes_eq.trans hdiv.symm)⟩

/-- If it does not, the writer stops with a part of what is due sent. -/
theorem writeRecord_fault (h : Along config schema sink calls w) (hmax : sink.maxWrite ≠ some 0)
    (hbefore : ClearFor config schema sink calls) {r : Record}
    (hclear : ¬ ClearFor config schema sink (calls ++ [.encode r])) :
    ∃ w' f, w.writeRecord r = (w', .error f) ∧
      w'.sink.data <+: outputOf config schema (calls ++ [.encode r]) := by
  by_cases hroom : sink.Fits (outputOf config schema (calls ++ [.encode r])).length
  · -- There is room, so there is a flush, and it fails.
    have hwrite := writeRecord_of_send (h.send_eq hmax (.encode r) hroom)
    dsimp only at hwrite
    rw [config_run, h.sinceFlush_eq] at hwrite
    have hfail : ∃ k, sink.failFlush = some k ∧
        k < (recordsOf (calls ++ [.encode r])).length / batchOf config := by
      by_contra hnone
      exact hclear ⟨hroom, fun k hk => Nat.le_of_not_lt fun hlt => hnone ⟨k, hk, hlt⟩⟩
    obtain ⟨k, hk, hlt⟩ := hfail
    have hle := hbefore.flushed k hk
    rw [recordsOf_concat_encode] at hlt
    have hbatch : batchOf config ≤ (recordsOf calls).length % batchOf config + 1 := by
      by_contra hbatch
      rw [(batch_incomplete (Nat.lt_of_not_le hbatch)).1] at hlt
      exact absurd hle (Nat.not_le_of_lt hlt)
    rw [(batch_complete (batchOf_pos config) hbatch).1] at hlt
    have hnow : w.sink.failFlush = some w.sink.flushes.length := by
      rw [h.flushes_eq, Nat.le_antisymm hle (Nat.le_of_lt_succ hlt), ← hk, h.sink_eq]
    rw [if_pos ((completes_iff config _).mpr hbatch)] at hwrite
    exact ⟨_, _, hwrite.trans (flush_of_eq hnow), List.prefix_refl _⟩
  · obtain ⟨sent, hsend, hprefix⟩ := h.send_fault hmax hbefore (.encode r) hroom
    exact ⟨sent, _, writeRecord_of_send_fault hsend, hprefix⟩

/-! ### Records -/

theorem ClearFor.of_append {more : List Call}
    (h : ClearFor config schema sink (calls ++ more)) : ClearFor config schema sink calls := by
  refine h.mono (outputOf_append config schema calls more).length_le (Nat.div_le_div_right ?_)
  rw [recordsOf, recordsOf, List.filterMap_append, List.length_append]
  exact Nat.le_add_right _ _

theorem append_map_cons (calls : List Call) (r : Record) (records : List Record) :
    calls ++ (r :: records).map .encode = (calls ++ [.encode r]) ++ records.map .encode :=
  (List.append_assoc calls [.encode r] _).symm

/-- Records are written if the sink gets through them, whatever comes behind. -/
theorem along_writeRecords (ofFault : SinkFault → ε) (h : Along config schema sink calls w)
    (hmax : sink.maxWrite ≠ some 0) (records : List Record)
    (hclear : ClearFor config schema sink (calls ++ records.map .encode)) :
    ∃ w', Along config schema sink (calls ++ records.map .encode) w' ∧
      ∀ rest, w.writeRecords ofFault (records.map .ok ++ rest) = w'.writeRecords ofFault rest := by
  induction records generalizing calls w with
  | nil =>
      refine ⟨w, ?_, fun _ => rfl⟩
      rwa [List.map_nil, List.append_nil]
  | cons r records ih =>
      rw [append_map_cons] at hclear ⊢
      obtain ⟨written, hr, hwritten⟩ := along_writeRecord h hmax hclear.of_append
      obtain ⟨w', hw', hrest⟩ := ih hwritten hclear
      refine ⟨w', hw', fun rest => ?_⟩
      rw [List.map_cons, List.cons_append, writeRecords, hr]
      exact hrest rest

/-- If it does not, the writer stops at one of them, and does not look at what comes behind. -/
theorem writeRecords_fault (ofFault : SinkFault → ε) (h : Along config schema sink calls w)
    (hmax : sink.maxWrite ≠ some 0) (hbefore : ClearFor config schema sink calls)
    (records : List Record)
    (hclear : ¬ ClearFor config schema sink (calls ++ records.map .encode)) :
    ∃ w' f, (∀ rest, w.writeRecords ofFault (records.map .ok ++ rest) = (w', .error (ofFault f))) ∧
      w'.sink.data <+: outputOf config schema (calls ++ records.map .encode) := by
  induction records generalizing calls w with
  | nil =>
      rw [List.map_nil, List.append_nil] at hclear
      exact absurd hbefore hclear
  | cons r records ih =>
      rw [append_map_cons] at hclear ⊢
      by_cases hnext : ClearFor config schema sink (calls ++ [.encode r])
      · obtain ⟨written, hr, hwritten⟩ := along_writeRecord h hmax hnext
        obtain ⟨w', f, hrest, hprefix⟩ := ih hwritten hnext hclear
        refine ⟨w', f, fun rest => ?_, hprefix⟩
        rw [List.map_cons, List.cons_append, writeRecords, hr]
        exact hrest rest
      · obtain ⟨w', f, hr, hprefix⟩ := writeRecord_fault h hmax hbefore hnext
        refine ⟨w', f, fun rest => ?_, hprefix.trans (outputOf_append ..)⟩
        rw [List.map_cons, List.cons_append, writeRecords, hr]

/-! ### A file -/

/-- Writes the header and records, up to the first error, but does not finish. -/
def writeFront (ofFault : SinkFault → ε) (w : Writer) (items : List (Except ε Record)) :
    Writer × Except ε Unit :=
  match w.begin ofFault with
  | (w, .error e) => (w, .error e)
  | (w, .ok ()) => w.writeRecords ofFault items

theorem writeAll_of_ok {items : List (Except ε Record)}
    (h : w.writeFront ofFault items = (w', .ok ())) :
    w.writeAll ofFault items = w'.finish ofFault := by
  rcases hbegin : w.begin ofFault with ⟨begun, result⟩
  rw [writeFront, hbegin] at h
  rw [writeAll, hbegin]
  cases result with
  | error _ => cases h
  | ok _ =>
      dsimp only at h ⊢
      rw [h]

theorem writeAll_of_error {items : List (Except ε Record)} {e : ε}
    (h : w.writeFront ofFault items = (w', .error e)) :
    w.writeAll ofFault items = (w', .error e) := by
  rcases hbegin : w.begin ofFault with ⟨begun, result⟩
  rw [writeFront, hbegin] at h
  rw [writeAll, hbegin]
  cases result with
  | error _ =>
      cases h
      rfl
  | ok _ =>
      dsimp only at h ⊢
      rw [h]

/-- The calls that a file makes of its encoder. -/
def fileCalls (records : List Record) : List Call := .start :: records.map .encode

theorem recordsOf_fileCalls (records : List Record) : recordsOf (fileCalls records) = records := by
  induction records with
  | nil => rfl
  | cons r records ih => exact congrArg (r :: ·) ih

/-- A file is written as far as the sink gets through it, whatever comes behind. -/
theorem along_writeFront (ofFault : SinkFault → ε) (hfresh : sink.IsFresh) (records : List Record)
    (hclear : ClearFor config schema sink (fileCalls records)) :
    ∃ w, Along config schema sink (fileCalls records) w ∧
      ∀ rest, (Writer.new config schema sink).writeFront ofFault (records.map .ok ++ rest)
        = w.writeRecords ofFault rest := by
  have hcalls : ClearFor config schema sink ([.start] ++ records.map .encode) := hclear
  have hhead : ClearFor config schema sink [.start] := hcalls.of_append
  obtain ⟨begun, hbegin, hbegun⟩ := along_begin ofFault hfresh hhead
  obtain ⟨w, hw, hrest⟩ := along_writeRecords ofFault hbegun hfresh.maxWrite_ne records hclear
  refine ⟨w, hw, fun rest => ?_⟩
  rw [writeFront, hbegin]
  exact hrest rest

/-- If the sink does not get through it, the writer stops on the way. -/
theorem writeFront_fault (ofFault : SinkFault → ε) (hfresh : sink.IsFresh) (records : List Record)
    (hclear : ¬ ClearFor config schema sink (fileCalls records)) :
    ∃ w f, (∀ rest, (Writer.new config schema sink).writeFront ofFault (records.map .ok ++ rest)
        = (w, .error (ofFault f))) ∧
      w.sink.data <+: outputOf config schema (fileCalls records) := by
  by_cases hhead : ClearFor config schema sink [.start]
  · obtain ⟨begun, hbegin, hbegun⟩ := along_begin ofFault hfresh hhead
    obtain ⟨w, f, hrest, hprefix⟩ :=
      writeRecords_fault ofFault hbegun hfresh.maxWrite_ne hhead records hclear
    refine ⟨w, f, fun rest => ?_, hprefix⟩
    rw [writeFront, hbegin]
    exact hrest rest
  · obtain ⟨w, hbegin, hprefix⟩ := begin_fault ofFault hfresh hhead
    refine ⟨w, .full, fun rest => ?_,
      hprefix.trans (outputOf_append config schema [.start] (records.map .encode))⟩
    rw [writeFront, hbegin]

/-- The last flush changes nothing that was written, and the figures count it. -/
theorem finish_eq (ofFault : SinkFault → ε) (h : Along config schema sink calls w) :
    (sink.failFlush = some ((recordsOf calls).length / batchOf config) →
      w.finish ofFault = (w, .error (ofFault .flushFailed))) ∧
    (sink.failFlush ≠ some ((recordsOf calls).length / batchOf config) →
      ∃ w', w.finish ofFault = (w', .ok ⟨(recordsOf calls).length,
          (outputOf config schema calls).length,
          ((Encoder.new config schema).run calls).1.dropped⟩) ∧
        w'.sink.data = outputOf config schema calls ∧
        w'.sink.flushes.length = (recordsOf calls).length / batchOf config + 1) := by
  have hfail : w.sink.failFlush = sink.failFlush := by rw [h.sink_eq]
  rw [← h.flushes_eq, ← hfail]
  refine ⟨fun heq => ?_, fun hne => ?_⟩
  · rw [finish, flush_of_eq heq]
  · let flushed : Writer := { w with
      sink := { w.sink with flushes := w.sink.flushes ++ [w.sink.data.length] }
      sinceFlush := 0 }
    have hflush : w.flush = (flushed, .ok ()) := flush_of_ne hne
    refine ⟨flushed, ?_, h.data_eq, List.length_append⟩
    rw [finish, hflush, ← h.records_eq, ← h.bytes_eq, ← h.encoder_eq]

/-- What the sink is at some moment of writing a file: in the middle of the header, or in the
middle of what is due for a record. -/
inductive Moment (ofFault : SinkFault → ε) (w : Writer) (items : List (Except ε Record)) :
    Sink → Prop where
  | header (n : Nat) : Moment ofFault w items (w.sink.afterCalls w.encoder.start.2 n)
  | record {front : List Record} {r : Record} {back : List (Except ε Record)} {w' : Writer}
      (n : Nat) (hitems : items = front.map .ok ++ .ok r :: back)
      (hfront : w.writeFront ofFault (front.map .ok) = (w', .ok ())) :
      Moment ofFault w items (w'.sink.afterCalls (w'.encoder.encode r).2 n)

/-- Items are records, or records and an error behind them. -/
theorem exists_records (items : List (Except ε Record)) :
    (∃ records : List Record, items = records.map .ok) ∨
      ∃ (front : List Record) (err : ε) (later : List (Except ε Record)),
        items = front.map .ok ++ .error err :: later := by
  induction items with
  | nil => exact .inl ⟨[], rfl⟩
  | cons item items ih =>
      cases item with
      | error err => exact .inr ⟨[], err, items, rfl⟩
      | ok r =>
          rcases ih with ⟨records, rfl⟩ | ⟨front, err, later, rfl⟩
          · exact .inl ⟨r :: records, rfl⟩
          · exact .inr ⟨r :: front, err, later, rfl⟩

theorem ne_of_error_mem (records front : List Record) (err : ε)
    (later : List (Except ε Record)) :
    records.map .ok ≠ front.map .ok ++ .error err :: later := by
  intro heq
  have hmem : Except.error err ∈ records.map (Except.ok (ε := ε)) :=
    heq ▸ List.mem_append_right _ (List.mem_cons_self ..)
  obtain ⟨_, -, h⟩ := List.mem_map.mp hmem
  cases h

/-- There is one first error. -/
theorem front_unique {front front' : List Record} {err err' : ε}
    {later later' : List (Except ε Record)}
    (h : front.map .ok ++ .error err :: later = front'.map .ok ++ .error err' :: later') :
    front = front' ∧ err = err' := by
  induction front generalizing front' with
  | nil =>
      cases front' with
      | nil => exact ⟨rfl, Except.error.inj (List.cons.inj h).1⟩
      | cons r' front' => cases (List.cons.inj h).1
  | cons r front ih =>
      cases front' with
      | nil => cases (List.cons.inj h).1
      | cons r' front' =>
          obtain ⟨hr, hrest⟩ := List.cons.inj h
          obtain ⟨rfl, rfl⟩ := ih hrest
          exact ⟨congrArg (· :: front) (Except.ok.inj hr), rfl⟩

theorem bytesOf_chunks_records (config : Config) (schema : Schema) (records : List Record) :
    bytesOf (chunks (ε := ε) (Encoder.new config schema) (records.map .ok))
      = outputOf config schema (fileCalls records) := by
  have happend := bytesOf_chunks_append (ε := ε) (Encoder.new config schema) records []
  rw [List.append_nil] at happend
  exact happend.trans (List.append_nil _)

/-- What comes of records is a part of the download, whatever comes behind them. -/
theorem outputOf_prefix_chunks (config : Config) (schema : Schema) (records : List Record)
    (rest : List (Except ε Record)) :
    outputOf config schema (fileCalls records)
      <+: bytesOf (chunks (Encoder.new config schema) (records.map .ok ++ rest)) := by
  rw [bytesOf_chunks_append]
  exact List.prefix_append _ _

/-- The sink holds a part of the download at any moment. -/
theorem prefix_of_moment (hfresh : sink.IsFresh) {items : List (Except ε Record)} {s : Sink}
    (h : Moment ofFault (Writer.new config schema sink) items s) :
    s.data <+: bytesOf (chunks (Encoder.new config schema) items) := by
  cases h with
  | header n =>
      have hpart := Sink.afterCalls_prefix sink (Encoder.new config schema).start.2 n
      rw [hfresh.data_eq, List.nil_append] at hpart
      rw [bytesOf_chunks_start]
      exact hpart.trans (List.prefix_append _ _)
  | @record front r back w' n hitems hfront =>
      subst hitems
      -- The writer has come this far, so the sink was clear for it.
      have hclear : ClearFor config schema sink (fileCalls front) := by
        by_contra hclear
        obtain ⟨_, _, hfault, -⟩ := writeFront_fault ofFault hfresh front hclear
        have hstopped := hfault []
        rw [List.append_nil, hfront] at hstopped
        cases hstopped
      obtain ⟨w, hw, hrest⟩ := along_writeFront ofFault hfresh front hclear
      have hreached := hrest []
      rw [List.append_nil, hfront] at hreached
      obtain rfl : w' = w := congrArg Prod.fst hreached
      have hpart := Sink.afterCalls_prefix w'.sink (w'.encoder.encode r).2 n
      have houtput := outputOf_prefix_chunks config schema (front ++ [r]) back
      rw [fileCalls, List.map_append, ← List.cons_append] at houtput
      rw [List.map_append, List.append_assoc] at houtput
      exact (hw.outputOf_concat (.encode r) ▸ hpart).trans houtput

/-- An error ends a download, whatever comes behind it. -/
theorem chunks_append_error (e : Encoder) (records : List Record) (err : ε)
    (later : List (Except ε Record)) :
    chunks e (records.map .ok ++ .error err :: later)
      = chunks e (records.map .ok) ++ [.error err] := by
  have hwith := bodyChunks_append e.start.1 records (.error err :: later)
  have hwithout := bodyChunks_append (ε := ε) e.start.1 records []
  rw [List.append_nil] at hwithout
  unfold chunks
  dsimp only
  rw [hwith, hwithout]
  split <;> simp [bodyChunks]

/-- Without errors, the writer gets through exactly if the sink is clear for the file and one
more flush. -/
theorem writeAll_records (ofFault : SinkFault → ε) (config : Config) (schema : Schema)
    (hfresh : sink.IsFresh) (records : List Record) :
    ∃ w result, (Writer.new config schema sink).writeAll ofFault (records.map .ok) = (w, result) ∧
      w.sink.data <+: outputOf config schema (fileCalls records) ∧
      ((∃ stats, result = .ok stats) ↔
        sink.IsClear (outputOf config schema (fileCalls records)).length
          (records.length / batchOf config + 1)) ∧
      ∀ stats, result = .ok stats →
        w.sink.data = outputOf config schema (fileCalls records) ∧
        w.sink.flushes.length = records.length / batchOf config + 1 ∧
        stats = ⟨records.length, (outputOf config schema (fileCalls records)).length,
          ((Encoder.new config schema).run (fileCalls records)).1.dropped⟩ := by
  by_cases hclear : ClearFor config schema sink (fileCalls records)
  · obtain ⟨along, halong, hrest⟩ := along_writeFront ofFault hfresh records hclear
    have hfront := hrest []
    rw [List.append_nil] at hfront
    have hall := writeAll_of_ok hfront
    obtain ⟨hfails, hworks⟩ := finish_eq ofFault halong
    rw [ClearFor, recordsOf_fileCalls] at hclear
    rw [recordsOf_fileCalls] at hfails hworks
    by_cases hlast : sink.failFlush = some (records.length / batchOf config)
    · refine ⟨along, _, hall.trans (hfails hlast), halong.data_eq ▸ List.prefix_refl _, ?_,
        fun stats h => by cases h⟩
      constructor
      · rintro ⟨stats, h⟩
        cases h
      · intro h
        exact absurd (h.flushed _ hlast) (Nat.not_succ_le_self _)
    · obtain ⟨w, hfinish, hholds, hcount⟩ := hworks hlast
      refine ⟨w, _, hall.trans hfinish, hholds ▸ List.prefix_refl _, ?_,
        fun stats h => ⟨hholds, hcount, (Except.ok.inj h).symm⟩⟩
      refine ⟨fun _ => ⟨hclear.room, fun k hk => ?_⟩, fun _ => ⟨_, rfl⟩⟩
      have hne : records.length / batchOf config ≠ k := fun heq => hlast (heq ▸ hk)
      exact Nat.lt_of_le_of_ne (hclear.flushed k hk) hne
  · obtain ⟨w, f, hrest, hprefix⟩ := writeFront_fault ofFault hfresh records hclear
    have hfront := hrest []
    rw [List.append_nil] at hfront
    refine ⟨w, _, writeAll_of_error hfront, hprefix, ?_, fun stats h => by cases h⟩
    constructor
    · rintro ⟨stats, h⟩
      cases h
    · intro h
      refine absurd ?_ hclear
      rw [ClearFor, recordsOf_fileCalls]
      exact h.mono (Nat.le_refl _) (Nat.le_succ _)

/-- The error of the source is the writer's if the sink is clear for what comes before it. -/
theorem writeAll_error (ofFault : SinkFault → ε) (config : Config) (schema : Schema)
    (hfresh : sink.IsFresh) (front : List Record) (err : ε) :
    ∃ w e, (∀ later, (Writer.new config schema sink).writeAll ofFault
          (front.map .ok ++ .error err :: later) = (w, .error e)) ∧
      w.sink.data <+: outputOf config schema (fileCalls front) ∧
      (ClearFor config schema sink (fileCalls front) →
        e = err ∧ w.sink.data = outputOf config schema (fileCalls front)) := by
  by_cases hclear : ClearFor config schema sink (fileCalls front)
  · obtain ⟨w, hw, hrest⟩ := along_writeFront ofFault hfresh front hclear
    exact ⟨w, err, fun later => writeAll_of_error (hrest (.error err :: later)),
      hw.data_eq ▸ List.prefix_refl _, fun _ => ⟨rfl, hw.data_eq⟩⟩
  · obtain ⟨w, f, hrest, hprefix⟩ := writeFront_fault ofFault hfresh front hclear
    exact ⟨w, ofFault f, fun later => writeAll_of_error (hrest (.error err :: later)), hprefix,
      fun h => absurd h hclear⟩

/-- What comes of writing items into a sink, compared with the download of the same items. -/
structure Agrees (ofFault : SinkFault → ε) (config : Config) (schema : Schema) (sink : Sink)
    (items : List (Except ε Record)) (w : Writer) (result : Except ε Stats) : Prop where
  /-- In the end the sink holds a part of the download. -/
  data_prefix : w.sink.data <+: bytesOf (chunks (Encoder.new config schema) items)
  /-- So it does at any moment before. -/
  moment_prefix : ∀ s, Moment ofFault (Writer.new config schema sink) items s →
    s.data <+: bytesOf (chunks (Encoder.new config schema) items)
  /-- The writer gets through exactly if no item is an error, all of the download fits, and the
  flush that fails is none of those that there are: one for each batch, and the last one. -/
  ok_iff : (∃ stats, result = .ok stats) ↔
    (∃ records : List Record, items = records.map .ok) ∧
    sink.Fits (bytesOf (chunks (Encoder.new config schema) items)).length ∧
    ∀ k, sink.failFlush = some k → items.length / max config.batchSize 1 < k
  /-- Then the sink holds all of the download, and the figures count it. -/
  of_ok : ∀ records : List Record, items = records.map .ok → ∀ stats, result = .ok stats →
    w.sink.data = bytesOf (chunks (Encoder.new config schema) items) ∧
    w.sink.flushes.length = items.length / max config.batchSize 1 + 1 ∧
    stats = ⟨items.length, (bytesOf (chunks (Encoder.new config schema) items)).length,
      ((Encoder.new config schema).run (.start :: records.map .encode)).1.dropped⟩
  /-- If an error of the source comes before any of the sink, it is the writer's error. The sink
  holds what the download has before it, and nothing depends on the items behind it. -/
  of_error : ∀ (front : List Record) (err : ε) (later : List (Except ε Record)),
    items = front.map .ok ++ .error err :: later →
    chunks (Encoder.new config schema) items
      = chunks (Encoder.new config schema) (front.map .ok) ++ [.error err] ∧
    (sink.IsClear (bytesOf (chunks (ε := ε) (Encoder.new config schema) (front.map .ok))).length
        (front.length / max config.batchSize 1) →
      result = .error err ∧
      w.sink.data = bytesOf (chunks (ε := ε) (Encoder.new config schema) (front.map .ok)) ∧
      ∀ others, (Writer.new config schema sink).writeAll ofFault
        (front.map .ok ++ .error err :: others) = (w, result))

/-- **A writer writes the download.** Whatever a sink takes per call and in all, whichever flush
fails, and wherever the items have their first error, what the writer sends agrees with the
download of the same items. -/
theorem writes_the_download (ofFault : SinkFault → ε) (config : Config) (schema : Schema)
    (hfresh : sink.IsFresh) (items : List (Except ε Record)) :
    ∃ w result, (Writer.new config schema sink).writeAll ofFault items = (w, result) ∧
      Agrees ofFault config schema sink items w result := by
  rcases exists_records items with ⟨records, rfl⟩ | ⟨front, err, later, rfl⟩
  · obtain ⟨w, result, hall, hprefix, hiff, hok⟩ :=
      writeAll_records ofFault config schema hfresh records
    have hlength : (records.map (Except.ok (ε := ε))).length = records.length := List.length_map _
    rw [← bytesOf_chunks_records (ε := ε)] at hprefix hiff hok
    refine ⟨w, result, hall, {
      data_prefix := hprefix
      moment_prefix := fun _ => prefix_of_moment hfresh
      ok_iff := ?_
      of_ok := fun records' heq => ?_
      of_error := fun front err later heq => ?_ }⟩
    · rw [hlength, hiff]
      exact ⟨fun h => ⟨⟨records, rfl⟩, h.room, h.flushed⟩, fun h => ⟨h.2.1, h.2.2⟩⟩
    · obtain rfl : records = records' := (List.map_inj_right fun _ _ => Except.ok.inj).mp heq
      rw [hlength]
      exact hok
    · exact absurd heq (ne_of_error_mem records front err later)
  · obtain ⟨w, e, hall, hprefix, herror⟩ := writeAll_error ofFault config schema hfresh front err
    have hno : ¬ ∃ records : List Record,
        front.map .ok ++ .error err :: later = records.map .ok := by
      rintro ⟨records, heq⟩
      exact ne_of_error_mem records front err later heq.symm
    refine ⟨w, .error e, hall later, {
      data_prefix := hprefix.trans (outputOf_prefix_chunks config schema front _)
      moment_prefix := fun _ => prefix_of_moment hfresh
      ok_iff := ?_
      of_ok := fun records heq => absurd ⟨records, heq⟩ hno
      of_error := fun front' err' later' heq => ?_ }⟩
    · constructor
      · rintro ⟨stats, h⟩
        cases h
      · exact fun h => absurd h.1 hno
    · -- There is one first error only, so it is this one.
      obtain ⟨rfl, rfl⟩ := front_unique heq
      refine ⟨chunks_append_error .., fun hclear => ?_⟩
      rw [bytesOf_chunks_records] at hclear ⊢
      have hfile : ClearFor config schema sink (fileCalls front) := by
        rw [ClearFor, recordsOf_fileCalls]
        exact hclear
      obtain ⟨rfl, hdata⟩ := herror hfile
      exact ⟨rfl, hdata, hall⟩

/-- A sink that takes three bytes at a time and has room for one line more than it gets. -/
theorem writes_the_download_in_pieces :
    let sink : Sink := { capacity := some 6, maxWrite := some 3, failFlush := some 1 }
    sink.IsFresh ∧
      ∃ w, (Writer.new {} .inferred sink).writeAll SinkFault.message
          [.ok (.ofList [("k", "v")]), .error "lost", .ok (.ofList [("k", "w")])]
        = (w, .error "lost") ∧
        w.sink.data = [107, 10, 118, 10] := by
  intro sink
  have hfresh : sink.IsFresh := ⟨rfl, rfl, by decide⟩
  obtain ⟨w, result, hall, hagrees⟩ :=
    writes_the_download SinkFault.message {} .inferred hfresh
      [.ok (.ofList [("k", "v")]), .error "lost", .ok (.ofList [("k", "w")])]
  obtain ⟨-, hfirst⟩ := hagrees.of_error [.ofList [("k", "v")]] "lost"
    [.ok (.ofList [("k", "w")])] rfl
  have hclear : sink.IsClear 4 0 := by
    refine ⟨fun c hc => ?_, fun k _ => Nat.zero_le k⟩
    obtain rfl := Option.some.inj hc
    decide
  obtain ⟨rfl, hdata, -⟩ := hfirst hclear
  exact ⟨hfresh, w, hall, hdata.trans (by decide)⟩

end Writer

end ResponseExport.Csv
