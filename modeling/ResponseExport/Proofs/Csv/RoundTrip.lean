import ResponseExport.Csv.Chunks
import ResponseExport.Proofs.Csv.Reader
import ResponseExport.Proofs.Csv.Records

/-!
# `ResponseExport.Proofs.Csv.RoundTrip`: a written file is read back

The chunks of a file are groups of lines: the header alone or with the first row,
and then one row each (`groupsOf`). `chunks_eq` says that the encoder writes just
these lines, with the byte order mark before the first one. With `read_lines` it
follows that a reader gets back the header and the cells of all records
(`chunks_read_back`), from all chunks together and from every chunk on its own.

The encoder is opened in `bodyChunks_eq` only, by induction over the records:
once the header is decided, a record is a line, whatever was written before.
-/

set_option autoImplicit false

namespace ResponseExport.Csv

variable {ε : Type}

/-- The columns of a file with these records, if it has any. -/
def headerOf (schema : Schema) (records : List Record) : Option (List String) :=
  match schema with
  | .fixed columns => some columns
  | .inferred => records.head?.map Record.keys

/-- The cells of a record, as bytes: its value for each column, or nothing. -/
def rowOf (columns : List String) (r : Record) : List (List UInt8) :=
  columns.map fun c => Text.bytes ((r.get? c).getD "")

/-- The table that a file shows: its header, and a row for each record. -/
def tableOf (columns : List String) (records : List Record) : List (List (List UInt8)) :=
  columns.map Text.bytes :: records.map (rowOf columns)

/-- What stands together in a chunk. A header that is inferred comes with the first row. -/
def groupsOf (schema : Schema) (columns : List String) (records : List Record) :
    List (List (List (List UInt8))) :=
  match schema, records with
  | .inferred, [] => []
  | .inferred, r :: rest =>
    [columns.map Text.bytes, rowOf columns r] :: rest.map fun r => [rowOf columns r]
  | .fixed _, records => [columns.map Text.bytes] :: records.map fun r => [rowOf columns r]

/-- The byte order mark of UTF-8, if there is to be one. -/
def markOf (bom : Bool) : List UInt8 := if bom then [0xEF, 0xBB, 0xBF] else []

/-- Pieces of a file with the byte order mark, if there is to be one, before the first. -/
def withMark (bom : Bool) : List (List UInt8) → List (List UInt8)
  | [] => []
  | piece :: rest => (markOf bom ++ piece) :: rest

/-! ### Records under distinct keys -/

/-- If the columns are the keys of a record, its cells are its values. -/
theorem rowOf_ofList {fields : List (String × String)} (h : (fields.map Prod.fst).Nodup) :
    rowOf (fields.map Prod.fst) (Record.ofList fields)
      = (fields.map Prod.snd).map Text.bytes := by
  rw [rowOf, List.map_map, List.map_map]
  refine List.map_congr_left fun field hmem => ?_
  show Text.bytes ((getField? field.1 (Record.ofList fields).fields).getD "") = Text.bytes field.2
  rw [fields_ofList h, getField?_of_mem h hmem]
  rfl

/-! ### Chunks and tables -/

theorem flatten_map_row (columns : List String) (records : List Record) :
    (records.map fun r => [rowOf columns r]).flatten = records.map (rowOf columns) := by
  rw [← List.flatMap_def, List.map_eq_flatMap]

/-- The groups put together are the table. -/
theorem flatten_groupsOf {schema : Schema} {columns : List String} {records : List Record}
    (h : headerOf schema records = some columns) :
    (groupsOf schema columns records).flatten = tableOf columns records := by
  cases schema with
  | fixed _ =>
      rw [groupsOf, List.flatten_cons, flatten_map_row]
      rfl
  | inferred =>
      cases records with
      | nil => cases h
      | cons r rest =>
          rw [groupsOf, List.flatten_cons, flatten_map_row]
          rfl

/-! ### The encoder -/

theorem lineOf_eq (e : Encoder) (columns : List String) (r : Record) :
    e.lineOf (Encoder.cells columns r) = e.config.dialect.line (rowOf columns r) := by
  rw [Encoder.lineOf, Encoder.cells, rowOf, List.map_map]
  rfl

/-- With a header, every record is a chunk of one line. -/
theorem bodyChunks_eq {e : Encoder} (columns : List String) (h : e.header = some columns)
    (records : List Record) :
    bodyChunks (ε := ε) e (records.map .ok)
      = records.map fun r => .ok (e.config.dialect.line (rowOf columns r)) := by
  induction records generalizing e with
  | nil => rfl
  | cons r rest ih =>
      have hencode : e.encode r = e.writeRecord columns r := by
        rw [Encoder.encode, h]
      rw [List.map_cons, List.map_cons, bodyChunks, hencode]
      show .ok (e.lineOf (Encoder.cells columns r)) :: bodyChunks (e.writeRecord columns r).1 _ = _
      rw [ih (e := (e.writeRecord columns r).1) h]
      rw [lineOf_eq]
      rfl

/-- A line has at least the byte that ends it. -/
theorem line_ne_nil (d : Dialect) (texts : List (List UInt8)) : d.line texts ≠ [] :=
  List.append_ne_nil_of_right_ne_nil _ (List.cons_ne_nil _ _)

/-- What stands before the first row of a file. -/
def headOf (config : Config) (columns : List String) : List UInt8 :=
  markOf config.bom ++ config.dialect.line (columns.map Text.bytes)

/-- The first record brings its header with it if none is written. -/
theorem encode_inferred (config : Config) (r : Record) :
    ∃ e, e.config = config ∧ e.header = some r.keys ∧
      (Encoder.new config .inferred).encode r
        = (e, headOf config r.keys ++ config.dialect.line (rowOf r.keys r)) := by
  refine ⟨((Encoder.new config .inferred).encode r).1, rfl, rfl, ?_⟩
  have hline := lineOf_eq ((Encoder.new config .inferred).writeHeader r.keys).1 r.keys r
  exact congrArg (fun bs => (_, headOf config r.keys ++ bs)) hline

/-- The chunks of a file are the groups of its lines. -/
theorem chunks_eq (config : Config) {schema : Schema} {columns : List String}
    {records : List Record} (h : headerOf schema records = some columns) :
    chunks (ε := ε) (Encoder.new config schema) (records.map .ok)
      = (withMark config.bom
          ((groupsOf schema columns records).map (·.flatMap config.dialect.line))).map .ok := by
  cases schema with
  | fixed columns' =>
      obtain rfl : columns' = columns := Option.some.inj h
      have hstart : (Encoder.new config (.fixed columns')).start
          = ({ Encoder.new config (.fixed columns') with header := some columns' },
            headOf config columns') := rfl
      have hhead : (headOf config columns').isEmpty = false := by
        simp [headOf, line_ne_nil]
      -- The header is a chunk of its own: it has bytes.
      rw [chunks, hstart]
      dsimp only
      rw [hhead, if_neg Bool.false_ne_true, bodyChunks_eq columns' rfl]
      simp [groupsOf, withMark, headOf, Encoder.new]
  | inferred =>
      cases records with
      | nil => cases h
      | cons r rest =>
          obtain rfl := Option.some.inj h
          obtain ⟨e, hconfig, hheader, hencode⟩ := encode_inferred config r
          have hstart : chunks (ε := ε) (Encoder.new config .inferred) ((r :: rest).map .ok)
              = bodyChunks (Encoder.new config .inferred) ((r :: rest).map .ok) := rfl
          -- There is nothing before the first record, whose chunk has the header as well.
          rw [hstart, List.map_cons, bodyChunks, hencode]
          dsimp only
          rw [bodyChunks_eq r.keys hheader, hconfig]
          simp [groupsOf, withMark, headOf]

/-- Without columns nothing is written. -/
theorem chunks_eq_nil (config : Config) {schema : Schema} {records : List Record}
    (h : headerOf schema records = none) :
    chunks (ε := ε) (Encoder.new config schema) (records.map .ok) = [] := by
  cases schema with
  | fixed _ => cases h
  | inferred =>
      cases records with
      | nil => rfl
      | cons r rest => cases h

/-! ### What a reader gets -/

/-- The bytes of a file. -/
def fileOf (config : Config) (columns : List String) (records : List Record) : List UInt8 :=
  markOf config.bom ++ (tableOf columns records).flatMap config.dialect.line

theorem bytesOf_map_ok (pieces : List (List UInt8)) :
    bytesOf (ε := ε) (pieces.map .ok) = pieces.flatten := by
  induction pieces with
  | nil => rfl
  | cons piece rest ih => rw [List.map_cons, bytesOf, ih, List.flatten_cons]

theorem failureOf?_map_ok (pieces : List (List UInt8)) :
    failureOf? (ε := ε) (pieces.map .ok) = none := by
  induction pieces with
  | nil => rfl
  | cons piece rest ih => rw [List.map_cons, failureOf?, ih]

theorem flatten_withMark (bom : Bool) {pieces : List (List UInt8)} (hne : pieces ≠ []) :
    (withMark bom pieces).flatten = markOf bom ++ pieces.flatten := by
  cases pieces with
  | nil => exact absurd rfl hne
  | cons piece rest => rw [withMark, List.flatten_cons, List.flatten_cons, List.append_assoc]

/-- The lines of all groups are the lines of the table. -/
theorem flatten_map_groupsOf (d : Dialect) {schema : Schema} {columns : List String}
    {records : List Record} (h : headerOf schema records = some columns) :
    ((groupsOf schema columns records).map (·.flatMap d.line)).flatten
      = (tableOf columns records).flatMap d.line := by
  rw [← flatten_groupsOf h, ← List.flatMap_def, ← List.flatMap_id]
  exact List.flatMap_assoc.symm

/-- The chunks put together are the file, and none of them is an error. -/
theorem bytesOf_chunks (config : Config) (schema : Schema) (records : List Record)
    {columns : List String} (h : headerOf schema records = some columns) :
    bytesOf (chunks (ε := ε) (Encoder.new config schema) (records.map .ok))
        = fileOf config columns records ∧
      failureOf? (chunks (ε := ε) (Encoder.new config schema) (records.map .ok)) = none := by
  rw [chunks_eq config h]
  refine ⟨?_, failureOf?_map_ok _⟩
  have hgroups : groupsOf schema columns records ≠ [] := by
    intro hnil
    have hflatten := flatten_groupsOf h
    rw [hnil] at hflatten
    cases hflatten
  rw [bytesOf_map_ok, flatten_withMark _ (by simpa using hgroups), flatten_map_groupsOf _ h, fileOf]

/-- No line of a table is without fields if there are columns. -/
theorem ne_nil_of_mem_tableOf {columns : List String} (hne : columns ≠ [])
    (records : List Record) : ∀ texts ∈ tableOf columns records, texts ≠ [] := by
  intro texts htexts
  rcases List.mem_cons.mp htexts with rfl | hrow
  · simpa using hne
  · obtain ⟨r, -, rfl⟩ := List.mem_map.mp hrow
    simpa [rowOf] using hne

/-- The lines of a table are read as the table. -/
theorem read_table {d : Dialect} (hd : d.IsClear) {columns : List String} (hne : columns ≠ [])
    (records : List Record) :
    read d ((tableOf columns records).flatMap d.line) = some (tableOf columns records) :=
  read_lines hd _ (ne_nil_of_mem_tableOf hne records)

/-- **Round trip.** If there is no header, nothing is written. If there is one with a
column, the file is the byte order mark, if there is to be one, and pieces that a strict
reader reads as the header and the cells of every record. The chunks are these pieces,
the first one with the mark, and each of them is read as whole records on its own. -/
theorem chunks_read_back (config : Config) (hd : config.dialect.IsClear) (schema : Schema)
    (records : List Record) :
    (headerOf schema records = none →
      chunks (ε := ε) (Encoder.new config schema) (records.map .ok) = []) ∧
    ∀ columns, headerOf schema records = some columns → columns ≠ [] →
      ∃ (pieces : List (List UInt8)) (groups : List (List (List (List UInt8)))),
        chunks (ε := ε) (Encoder.new config schema) (records.map .ok)
          = (withMark config.bom pieces).map .ok ∧
        bytesOf (chunks (ε := ε) (Encoder.new config schema) (records.map .ok))
          = markOf config.bom ++ pieces.flatten ∧
        read config.dialect pieces.flatten
          = some (columns.map Text.bytes
              :: records.map fun r => columns.map fun c => Text.bytes ((r.get? c).getD "")) ∧
        pieces.map (read config.dialect) = groups.map some ∧
        groups.flatten
          = columns.map Text.bytes
              :: records.map fun r => columns.map fun c => Text.bytes ((r.get? c).getD "") := by
  refine ⟨chunks_eq_nil config, fun columns hheader hne => ?_⟩
  have hbytes := (bytesOf_chunks (ε := ε) config schema records hheader).1
  have hlines := flatten_map_groupsOf config.dialect hheader
  have hgroups := flatten_groupsOf hheader
  refine ⟨_, groupsOf schema columns records, chunks_eq config hheader, ?_, ?_, ?_, hgroups⟩
  · rw [hbytes, hlines, fileOf]
  · rw [hlines]
    exact read_table hd hne records
  · rw [List.map_map]
    refine List.map_congr_left fun group hgroup => read_lines hd _ fun texts htexts => ?_
    refine ne_nil_of_mem_tableOf hne records texts ?_
    exact hgroups ▸ List.mem_flatten.mpr ⟨group, hgroup, htexts⟩

/-- A field with the delimiter, the quote and a line feed in it, and an empty one. -/
theorem chunks_read_back_special :
    Dialect.IsClear ⟨59, 39⟩ ∧
    ∃ pieces : List (List UInt8),
      bytesOf (chunks (ε := Empty) (Encoder.new { dialect := ⟨59, 39⟩, bom := true } .inferred)
        [.ok { fields := [("k", "a;'b'\n"), ("e", "")] }])
        = [0xEF, 0xBB, 0xBF] ++ pieces.flatten ∧
      read ⟨59, 39⟩ pieces.flatten = some [[[107], [101]], [[97, 59, 39, 98, 39, 10], []]] := by
  have hd : Dialect.IsClear ⟨59, 39⟩ := ⟨by decide, by decide, by decide, by decide, by decide⟩
  obtain ⟨pieces, -, -, hbytes, hread, -⟩ :=
    (chunks_read_back (ε := Empty) { dialect := ⟨59, 39⟩, bom := true } hd .inferred
      [{ fields := [("k", "a;'b'\n"), ("e", "")] }]).2 ["k", "e"] rfl (List.cons_ne_nil _ _)
  refine ⟨hd, pieces, hbytes, hread.trans ?_⟩
  decide

end ResponseExport.Csv
