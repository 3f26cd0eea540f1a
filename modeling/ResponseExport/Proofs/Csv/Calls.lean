import Mathlib
import ResponseExport.Proofs.Csv.LineWriter
import ResponseExport.Proofs.Csv.RoundTrip

/-!
# `ResponseExport.Proofs.Csv.Calls`: an encoder called in any order

A download and a writer call `start` once and then `encode` for each record
(`bytesOf_chunks_append`), but nothing enforces this: `start` may be called late, twice
or never. A `Call` is one or the other, and `Encoder.run` is what comes of a list of them.

A call decides the columns if none are decided before (`Call.columns?`), and what comes
of it depends on nothing else: before there are columns a call that decides none is
silent (`call_undecided`), the one that decides them writes the header in front of its
record (`call_decides`), and every later one writes its record at most (`call_decided`).
So a run is silent calls, one that writes the header, and calls that write records
(`run_new_of_some`), unless all its calls are silent (`run_new_of_none`).
-/

set_option autoImplicit false

namespace ResponseExport.Csv

/-- Something that is asked of an encoder. -/
inductive Call where
  | start
  | encode (r : Record)

namespace Call

/-- The record of a call. -/
def record? : Call → Option Record
  | .start => none
  | .encode r => some r

/-- The columns that a call decides on if none are decided yet. -/
def columns? (schema : Schema) : Call → Option (List String)
  | .start => headerOf schema []
  | .encode r => headerOf schema [r]

/-- The line of a call under given columns. -/
def lineOf (d : Dialect) (columns : List String) : Call → List UInt8
  | .start => []
  | .encode r => d.line (rowOf columns r)

/-- How many values of a call have no column. -/
def surplus (columns : List String) : Call → Nat
  | .start => 0
  | .encode r => Encoder.surplus columns r

end Call

/-- The records of calls. -/
def recordsOf (calls : List Call) : List Record := calls.filterMap Call.record?

/-- The columns that calls come to: those of a fixed schema as soon as there is a call, or the
keys of the first record. -/
def headerAfter (schema : Schema) (calls : List Call) : Option (List String) :=
  if calls.isEmpty then none else headerOf schema (recordsOf calls)

namespace Encoder

/-- An encoder behind a call, with what it gives. -/
def call (e : Encoder) : Call → Encoder × List UInt8
  | .start => e.start
  | .encode r => e.encode r

/-- An encoder behind calls, with what it gives for each. -/
def run (e : Encoder) : List Call → Encoder × List (List UInt8)
  | [] => (e, [])
  | c :: calls =>
    let (e, chunk) := e.call c
    let (e, chunks) := e.run calls
    (e, chunk :: chunks)

end Encoder

namespace LineEncoder

variable (isFull : List UInt8 → Bool)

/-- An encoder behind a call, with what it gives. -/
def call (e : LineEncoder) : Call → LineEncoder × Except ExportError (List UInt8)
  | .start => e.start isFull
  | .encode r => e.encode isFull r

/-- An encoder behind calls, with what it gives for each. -/
def run (e : LineEncoder) : List Call → LineEncoder × List (Except ExportError (List UInt8))
  | [] => (e, [])
  | c :: calls =>
    let (e, chunk) := e.call isFull c
    let (e, chunks) := e.run calls
    (e, chunk :: chunks)

variable {e : LineEncoder}

theorem call_eq (h : e.IsTidy) (c : Call) :
    ∃ writer, e.call isFull c = (⟨(e.encoder.call c).1, writer⟩, .ok (e.encoder.call c).2) ∧
      IsTidy ⟨(e.encoder.call c).1, writer⟩ := by
  cases c with
  | start => exact start_eq isFull h
  | encode r => exact encode_eq isFull h r

/-- No call fails, and the buffers do not show. -/
theorem run_eq (h : e.IsTidy) (calls : List Call) :
    ∃ writer, e.run isFull calls
      = (⟨(e.encoder.run calls).1, writer⟩, (e.encoder.run calls).2.map .ok) := by
  induction calls generalizing e with
  | nil => exact ⟨e.writer, rfl⟩
  | cons c calls ih =>
      obtain ⟨writer, hcall, htidy⟩ := call_eq isFull h c
      obtain ⟨writer', hrun⟩ := ih htidy
      refine ⟨writer', ?_⟩
      rw [run, hcall]
      dsimp only
      rw [hrun]
      rfl

end LineEncoder

/-! ### One call -/

namespace Encoder

variable {e : Encoder} {columns : List String} {c : Call}

/-- Counts the values of calls that have no column. -/
def addSurplus (e : Encoder) (columns : List String) (calls : List Call) : Encoder :=
  { e with dropped := e.dropped + (calls.map (Call.surplus columns)).sum }

@[simp] theorem header_addSurplus (e : Encoder) (columns : List String) (calls : List Call) :
    (e.addSurplus columns calls).header = e.header := rfl

@[simp] theorem config_addSurplus (e : Encoder) (columns : List String) (calls : List Call) :
    (e.addSurplus columns calls).config = e.config := rfl

/-- With columns, a call writes its record. -/
theorem call_decided (h : e.header = some columns) (c : Call) :
    e.call c = (e.addSurplus columns [c], c.lineOf e.config.dialect columns) := by
  cases c with
  | start =>
      rw [call, start, h]
      cases e.schema <;> rfl
  | encode r =>
      have hencode : e.encode r = e.writeRecord columns r := by rw [encode, h]
      exact hencode.trans (Prod.ext rfl (lineOf_eq e columns r))

/-- A call that decides no columns when there are none is silent. -/
theorem call_undecided (h : e.header = none) (hc : c.columns? e.schema = none) :
    e.call c = (e, []) := by
  obtain ⟨config, schema, header, dropped⟩ := e
  cases schema with
  | fixed _ => cases c <;> cases hc
  | inferred =>
      cases c with
      | start => rfl
      | encode r => cases hc

/-- The call that decides the columns writes the header, and its record behind it. -/
theorem call_decides (h : e.header = none) (hc : c.columns? e.schema = some columns) :
    e.call c = ({ e with header := some columns }.addSurplus columns [c],
      headOf e.config columns ++ c.lineOf e.config.dialect columns) := by
  obtain ⟨config, schema, header, dropped⟩ := e
  cases h
  cases c with
  | start =>
      cases schema with
      | fixed _ =>
          cases hc
          exact Prod.ext rfl (List.append_nil _).symm
      | inferred => cases hc
  | encode r =>
      have hline := lineOf_eq ⟨config, schema, some columns, dropped⟩ columns r
      have hcolumns : columnsFor ⟨config, schema, none, dropped⟩ r = columns := by
        cases schema <;> exact Option.some.inj hc
      rw [call, encode]
      dsimp only
      rw [hcolumns]
      exact Prod.ext rfl (congrArg (headOf config columns ++ ·) hline)

/-- There is nothing due before the first record if its keys are the columns, or if there are
columns. -/
theorem start_silent (h : e.schema = .inferred ∨ e.header ≠ none) : e.start = (e, []) := by
  obtain ⟨config, schema, header, dropped⟩ := e
  cases schema with
  | inferred => rfl
  | fixed _ =>
      cases header with
      | some _ => rfl
      | none =>
          rcases h with h | h
          · cases h
          · exact absurd rfl h

end Encoder

/-! ### The records of calls -/

/-- The first call that decides on columns does so for all. -/
theorem headerAfter_eq (schema : Schema) (calls : List Call) :
    headerAfter schema calls = calls.findSome? (Call.columns? schema) := by
  cases schema with
  | fixed columns =>
      cases calls with
      | nil => rfl
      | cons c calls => cases c <;> rfl
  | inferred =>
      induction calls with
      | nil => rfl
      | cons c calls ih =>
          cases c with
          | encode r => rfl
          | start =>
              rw [List.findSome?_cons, ← ih]
              cases calls <;> rfl

/-- Columns that are decided stay. -/
theorem headerAfter_append {schema : Schema} {calls : List Call} {columns : List String}
    (h : headerAfter schema calls = some columns) (more : List Call) :
    headerAfter schema (calls ++ more) = some columns := by
  rw [headerAfter_eq] at h ⊢
  rw [List.findSome?_append, h]
  rfl

theorem recordsOf_eq_nil {schema : Schema} {calls : List Call}
    (h : ∀ c ∈ calls, c.columns? schema = none) : recordsOf calls = [] := by
  refine List.filterMap_eq_nil_iff.mpr fun c hc => ?_
  cases c with
  | start => rfl
  | encode r =>
      have hnone := h _ hc
      cases schema <;> cases hnone

theorem flatten_silent (calls : List Call) :
    (calls.map fun _ => ([] : List UInt8)).flatten = [] := by
  rw [List.map_const', List.flatten_replicate_nil]

/-- The lines of calls are those of their records. -/
theorem flatten_lineOf (d : Dialect) (columns : List String) (calls : List Call) :
    (calls.map (Call.lineOf d columns)).flatten
      = ((recordsOf calls).map (rowOf columns)).flatMap d.line := by
  induction calls with
  | nil => rfl
  | cons c calls ih =>
      rw [List.map_cons, List.flatten_cons, ih]
      cases c <;> rfl

theorem sum_surplus (columns : List String) (calls : List Call) :
    (calls.map (Call.surplus columns)).sum
      = ((recordsOf calls).map (Encoder.surplus columns)).sum := by
  induction calls with
  | nil => rfl
  | cons c calls ih =>
      rw [List.map_cons, List.sum_cons, ih]
      cases c with
      | start => exact Nat.zero_add _
      | encode r => rfl

/-- The surplus of a record are its keys that are no columns. -/
theorem surplus_eq (columns : List String) :
    Encoder.surplus columns = fun r => r.keys.countP (· ∉ columns) := by
  funext r
  simp [Encoder.surplus]

/-- There is a line in front of the first row. -/
theorem headOf_ne_nil (config : Config) (columns : List String) : headOf config columns ≠ [] :=
  List.append_ne_nil_of_right_ne_nil _ (line_ne_nil _ _)

/-! ### Runs -/

namespace Encoder

variable {e : Encoder}

theorem run_append (e : Encoder) (front back : List Call) :
    e.run (front ++ back)
      = (((e.run front).1.run back).1, (e.run front).2 ++ ((e.run front).1.run back).2) := by
  induction front generalizing e with
  | nil => rfl
  | cons c front ih =>
      rw [List.cons_append, run]
      dsimp only
      rw [ih]
      rfl

theorem run_concat (e : Encoder) (calls : List Call) (c : Call) :
    e.run (calls ++ [c])
      = (((e.run calls).1.call c).1, (e.run calls).2 ++ [((e.run calls).1.call c).2]) :=
  run_append e calls [c]

/-- With columns, calls write their records. -/
theorem run_decided (columns : List String) (h : e.header = some columns) (calls : List Call) :
    e.run calls
      = (e.addSurplus columns calls, calls.map (Call.lineOf e.config.dialect columns)) := by
  induction calls generalizing e with
  | nil => rfl
  | cons c calls ih =>
      rw [run, call_decided h c]
      dsimp only
      rw [ih (e := e.addSurplus columns [c]) (by simpa using h)]
      simp [addSurplus, Nat.add_assoc]

/-- The calls in front of the one that decides the columns are silent. -/
theorem run_append_undecided (h : e.header = none) {silent : List Call}
    (hsilent : ∀ c ∈ silent, c.columns? e.schema = none) (calls : List Call) :
    e.run (silent ++ calls)
      = ((e.run calls).1, silent.map (fun _ => []) ++ (e.run calls).2) := by
  induction silent with
  | nil => rfl
  | cons c silent ih =>
      rw [List.forall_mem_cons] at hsilent
      rw [List.cons_append, run, call_undecided h hsilent.1]
      dsimp only
      rw [ih hsilent.2]
      rfl

/-- Without columns in the end, all calls are silent. -/
theorem run_new_of_none (config : Config) {schema : Schema} {calls : List Call}
    (h : headerAfter schema calls = none) :
    (new config schema).run calls = (new config schema, calls.map fun _ => []) := by
  rw [headerAfter_eq, List.findSome?_eq_none_iff] at h
  have hrun := run_append_undecided (e := new config schema) rfl h []
  rw [List.append_nil] at hrun
  exact hrun.trans (Prod.ext rfl (List.append_nil _))

/-- With columns in the end, one call writes the header. Those in front of it are silent, and those
behind it write their records. -/
theorem run_new_of_some (config : Config) {schema : Schema} {calls : List Call}
    {columns : List String}
    (h : headerAfter schema calls = some columns) :
    ∃ silent c later, calls = silent ++ c :: later ∧ headerAfter schema silent = none ∧
      (∀ d, ((c :: later).map (Call.lineOf d columns)).flatten
        = ((recordsOf calls).map (rowOf columns)).flatMap d.line) ∧
      (new config schema).run calls
        = (⟨config, schema, some columns, ((recordsOf calls).map (surplus columns)).sum⟩,
          silent.map (fun _ => [])
            ++ (headOf config columns ++ c.lineOf config.dialect columns)
              :: later.map (Call.lineOf config.dialect columns)) := by
  rw [headerAfter_eq, List.findSome?_eq_some_iff] at h
  obtain ⟨silent, c, later, rfl, hc, hsilent⟩ := h
  have hrecords : recordsOf (silent ++ c :: later) = recordsOf (c :: later) := by
    rw [recordsOf, List.filterMap_append, ← recordsOf, recordsOf_eq_nil hsilent]
    rfl
  refine ⟨silent, c, later, rfl, ?_, fun d => ?_, ?_⟩
  · rw [headerAfter_eq, List.findSome?_eq_none_iff]
    exact hsilent
  · rw [flatten_lineOf, hrecords]
  · rw [run_append_undecided (e := new config schema) rfl hsilent, run,
      call_decides (e := new config schema) rfl hc]
    dsimp only
    rw [run_decided columns rfl, hrecords, ← sum_surplus]
    simp [addSurplus, new]

/-- What comes of calls of a new encoder: its state, and what it gives for each call. -/
structure MakesOneFile (isFull : List UInt8 → Bool) (config : Config) (schema : Schema)
    (calls : List Call) (done : Encoder) (out : List (List UInt8)) : Prop where
  /-- No call fails, and it does not show when the buffers are passed on. -/
  never_fails : ∃ writer, (LineEncoder.new config schema).run isFull calls
    = (⟨done, writer⟩, out.map .ok)
  header_eq : done.header = headerAfter schema calls
  /-- The header stays whatever is called then. -/
  header_stays : ∀ columns, done.header = some columns → ∀ more,
    ((new config schema).run (calls ++ more)).1.header = some columns
  /-- From now on a late start gives nothing, and under an inferred schema any start. -/
  start_eq : schema = .inferred ∨ done.header ≠ none → done.start = (done, [])
  /-- Without a header, nothing comes of the calls. -/
  of_none : headerAfter schema calls = none →
    out = calls.map (fun _ => []) ∧ out.flatten = [] ∧ done.dropped = 0
  /-- Otherwise some calls give nothing, one gives the header behind the byte order mark, if there
  is to be one, and from then on each gives the line of its record and nothing else. All together
  is the file of the records. -/
  of_some : ∀ columns, headerAfter schema calls = some columns →
    (∃ silent c later, calls = silent ++ c :: later ∧ headerAfter schema silent = none ∧
      headOf config columns ≠ [] ∧ out = silent.map (fun _ => [])
        ++ (headOf config columns ++ c.lineOf config.dialect columns)
          :: later.map (Call.lineOf config.dialect columns)) ∧
    out.flatten = fileOf config columns (recordsOf calls) ∧
    -- The keys of each record that are no columns are counted.
    done.dropped = ((recordsOf calls).map fun r => r.keys.countP (· ∉ columns)).sum

/-- **One file from any calls.** Whatever is called, in whichever order, the encoder makes one
file of the records. -/
theorem one_file_from_any_calls (isFull : List UInt8 → Bool) (config : Config) (schema : Schema)
    (calls : List Call) :
    ∃ done out, (new config schema).run calls = (done, out) ∧
      MakesOneFile isFull config schema calls done out := by
  have hnever : ∃ writer, (LineEncoder.new config schema).run isFull calls
      = (⟨((new config schema).run calls).1, writer⟩, ((new config schema).run calls).2.map .ok) :=
    LineEncoder.run_eq isFull (LineEncoder.isTidy_new config schema) calls
  cases hheader : headerAfter schema calls with
  | none =>
      have hrun := run_new_of_none config hheader
      rw [hrun] at hnever
      refine ⟨_, _, hrun, {
        never_fails := hnever
        header_eq := hheader.symm
        header_stays := fun columns h => by cases h
        start_eq := fun h => start_silent h
        of_none := fun _ => ⟨rfl, flatten_silent calls, rfl⟩
        of_some := fun columns h => ?_ }⟩
      rw [hheader] at h
      cases h
  | some columns =>
      obtain ⟨silent, c, later, hcalls, hsilent, hlines, hrun⟩ := run_new_of_some config hheader
      rw [hrun] at hnever
      refine ⟨_, _, hrun, {
        never_fails := hnever
        header_eq := hheader.symm
        header_stays := fun columns' h more => ?_
        start_eq := fun h => start_silent h
        of_none := fun h => ?_
        of_some := fun columns' h => ?_ }⟩
      · obtain ⟨_, _, _, _, _, _, hmore⟩ :=
          run_new_of_some config (headerAfter_append hheader more)
        rw [hmore]
        exact h
      · rw [hheader] at h
        cases h
      · obtain rfl := Option.some.inj (hheader.symm.trans h)
        rw [surplus_eq]
        refine ⟨⟨silent, c, later, hcalls, hsilent, headOf_ne_nil config columns, rfl⟩, ?_, rfl⟩
        -- Silent calls give nothing, and what the others give is the header and the lines.
        rw [List.flatten_append, flatten_silent, List.nil_append, List.flatten_cons,
          List.append_assoc, ← List.flatten_cons, ← List.map_cons, hlines, headOf, fileOf]
        simp [tableOf]

end Encoder

/-! ### Downloads -/

variable {ε : Type}

theorem bodyChunks_append (e : Encoder) (records : List Record) (rest : List (Except ε Record)) :
    bodyChunks e (records.map .ok ++ rest)
      = (e.run (records.map .encode)).2.map .ok
        ++ bodyChunks (e.run (records.map .encode)).1 rest := by
  induction records generalizing e with
  | nil => rfl
  | cons r records ih =>
      rw [List.map_cons, List.cons_append, bodyChunks]
      dsimp only
      rw [ih]
      rfl

theorem bytesOf_map_ok_append (pieces : List (List UInt8)) (rest : List (Except ε (List UInt8))) :
    bytesOf (pieces.map .ok ++ rest) = pieces.flatten ++ bytesOf rest := by
  induction pieces with
  | nil => rfl
  | cons piece pieces ih =>
      rw [List.map_cons, List.cons_append, bytesOf, ih, List.flatten_cons, List.append_assoc]

theorem failureOf?_map_ok_append (pieces : List (List UInt8))
    (rest : List (Except ε (List UInt8))) :
    failureOf? (pieces.map .ok ++ rest) = failureOf? rest := by
  induction pieces with
  | nil => rfl
  | cons piece pieces ih => exact ih

theorem bytesOf_chunks_start (e : Encoder) (items : List (Except ε Record)) :
    bytesOf (chunks e items) = e.start.2 ++ bytesOf (bodyChunks e.start.1 items) := by
  unfold chunks
  dsimp only
  split
  · rename_i hempty
    rw [List.isEmpty_iff.mp hempty]
    rfl
  · rfl

/-- A download calls `start` and then `encode` for each record in front of the first error. -/
theorem bytesOf_chunks_append (e : Encoder) (records : List Record)
    (rest : List (Except ε Record)) :
    bytesOf (chunks e (records.map .ok ++ rest))
      = (e.run (.start :: records.map .encode)).2.flatten
        ++ bytesOf (bodyChunks (e.run (.start :: records.map .encode)).1 rest) := by
  rw [bytesOf_chunks_start, bodyChunks_append, bytesOf_map_ok_append, ← List.append_assoc]
  rfl

end ResponseExport.Csv
