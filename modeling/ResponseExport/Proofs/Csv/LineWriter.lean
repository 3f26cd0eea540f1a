import ResponseExport.Csv.LineWriter

/-!
# `ResponseExport.Proofs.Csv.LineWriter`: buffers leave nothing behind

`LineWriter.Holds` says which bytes of a line are written, wherever they are: in the buffer or
passed on from it. Every byte and every field adds to them (`Holds.put`, `Holds.writeField`), so
the fields of a line make the line (`Holds.writeFields`, `Holds.close`), and a writer that starts
with nothing gives the whole line away and is left with nothing (`Holds.writeRow`). This needs the
line to have as many fields as the first one.

A `LineEncoder` keeps to that (`LineEncoder.IsTidy`): the header is its first line, and a record
has a field for every column. So it does what its `Encoder` does and never fails
(`LineEncoder.start_eq`, `LineEncoder.encode_eq`).
-/

set_option autoImplicit false

namespace ResponseExport.Csv

/-- A field behind others comes with a delimiter. -/
theorem Dialect.joined_concat (d : Dialect) (fs : List (List UInt8)) (f : List UInt8) :
    d.joined (fs ++ [f])
      = (if fs = [] then [] else d.joined fs ++ [d.delimiter]) ++ d.field f := by
  fun_induction d.joined fs with
  | case1 => rfl
  | case2 g => simp [joined]
  | case3 g fs hfs ih =>
      have hne : fs ≠ [] := fun hnil => hfs hnil
      rw [if_neg hne] at ih
      simp [joined, hne, ih]

namespace LineWriter

variable (isFull : List UInt8 → Bool) {d : Dialect} {width : Option Nat} {n : Nat}
  {bs : List UInt8} {w : LineWriter}

/-- Of a line, `n` fields and the bytes `bs` are written. -/
structure Holds (d : Dialect) (width : Option Nat) (n : Nat) (bs : List UInt8)
    (w : LineWriter) : Prop where
  dialect_eq : w.dialect = d
  width_eq : w.width = width
  fields_eq : w.fields = n
  bytes_eq : w.passed ++ w.buffered = bs
  hasBytes_eq : w.hasBytes = !bs.isEmpty

/-- A byte is written, whether or not others are passed on for it. -/
theorem Holds.put (h : Holds d width n bs w) (b : UInt8) :
    Holds d width n (bs ++ [b]) (w.put isFull b) := by
  obtain ⟨hdialect, hwidth, hfields, rfl, -⟩ := h
  unfold LineWriter.put
  split
  · exact ⟨hdialect, hwidth, hfields, rfl, by simp⟩
  · exact ⟨hdialect, hwidth, hfields, (List.append_assoc ..).symm, by simp⟩

theorem Holds.puts (h : Holds d width n bs w) (more : List UInt8) :
    Holds d width n (bs ++ more) (w.puts isFull more) := by
  induction more generalizing bs w with
  | nil => rwa [List.append_nil]
  | cons b more ih =>
      have hrest := ih (h.put isFull b)
      rwa [List.append_assoc] at hrest

/-- A field is written, behind a delimiter if others are there. -/
theorem Holds.writeField {fs : List (List UInt8)}
    (h : Holds d width fs.length (d.joined fs) w) (f : List UInt8) :
    Holds d width (fs ++ [f]).length (d.joined (fs ++ [f])) (w.writeField isFull f) := by
  have hdelimited : Holds d width fs.length (if fs = [] then [] else d.joined fs ++ [d.delimiter])
      (if w.fields = 0 then w else w.put isFull w.dialect.delimiter) := by
    cases fs with
    | nil =>
        rw [if_pos rfl, if_pos (show w.fields = 0 from h.fields_eq)]
        exact h
    | cons g fs =>
        rw [if_neg (List.cons_ne_nil g fs), if_neg (h.fields_eq ▸ Nat.succ_ne_zero _),
          h.dialect_eq]
        exact h.put isFull _
  have hfield := hdelimited.puts isFull (d.field f)
  rw [← Dialect.joined_concat] at hfield
  unfold LineWriter.writeField
  dsimp only
  rw [hdelimited.dialect_eq]
  exact { hfield with
    fields_eq := by
      rw [List.length_append, ← hfield.fields_eq]
      rfl }

/-- The fields of a line are written one by one. -/
theorem Holds.writeFields {fs : List (List UInt8)}
    (h : Holds d width fs.length (d.joined fs) w) (more : List (List UInt8)) :
    Holds d width (fs ++ more).length (d.joined (fs ++ more))
      (more.foldl (LineWriter.writeField isFull) w) := by
  induction more generalizing fs w with
  | nil => rwa [List.append_nil]
  | cons f more ih =>
      have hrest := ih (h.writeField isFull f)
      rwa [List.append_assoc] at hrest

/-- The end of a line makes its bytes a line. -/
theorem Holds.close {fs : List (List UInt8)} (h : Holds d width n (d.joined fs) w) :
    (w.close isFull).passed ++ (w.close isFull).buffered = d.line fs ∧
      (w.close isFull).dialect = d := by
  -- A line that has no byte gets two quotes.
  have hquoted : Holds d width n
      (if (d.joined fs).isEmpty then [d.quote, d.quote] else d.joined fs)
      (if w.hasBytes then w else w.puts isFull [w.dialect.quote, w.dialect.quote]) := by
    rw [h.hasBytes_eq, h.dialect_eq]
    cases hbytes : d.joined fs with
    | nil =>
        rw [hbytes] at h
        exact h.puts isFull _
    | cons b bs =>
        rw [hbytes] at h
        exact h
  have hended := hquoted.put isFull Dialect.lineFeed
  exact ⟨hended.bytes_eq, hended.dialect_eq⟩

/-- A writer that holds nothing gives a line away, and holds nothing again. -/
theorem Holds.writeRow (h : Holds d width 0 [] w) (fs : List (List UInt8))
    (hwidth : width.getD fs.length = fs.length) :
    ∃ w', w.writeRow isFull fs = (w', .ok (d.line fs)) ∧ Holds d (some fs.length) 0 [] w' := by
  have hstart : Holds d width ([] : List (List UInt8)).length (d.joined []) w := h
  have hfields : Holds d width fs.length (d.joined fs)
      (fs.foldl (LineWriter.writeField isFull) w) :=
    hstart.writeFields isFull fs
  obtain ⟨hline, hdialect⟩ := hfields.close isFull
  let closed : LineWriter := (fs.foldl (LineWriter.writeField isFull) w).close isFull
  have hended : (fs.foldl (LineWriter.writeField isFull) w).endLine isFull
      = ({ closed with width := some fs.length }, .ok ()) := by
    rw [endLine, hfields.width_eq, hfields.fields_eq, hwidth]
    exact if_pos rfl
  refine ⟨{ closed with width := some fs.length, buffered := [], passed := [] }, ?_,
    ⟨hdialect, rfl, rfl, rfl, rfl⟩⟩
  rw [LineWriter.writeRow, hended, ← hline]
  rfl

/-- What is written of a line that is refused stands in front of the next one. -/
example :
    ((LineWriter.writeRow (fun _ => false) { dialect := {}, width := some 2 } [[97]]).1.writeRow
      (fun _ => false) [[98]]).2 = .ok [97, 44, 98, 10] := rfl

end LineWriter

namespace LineEncoder

variable (isFull : List UInt8 → Bool) {e : LineEncoder}

/-- Nothing is left in the buffers, and lines have as many fields as there are columns. -/
def IsTidy (e : LineEncoder) : Prop :=
  e.writer.Holds e.encoder.config.dialect (e.encoder.header.map List.length) 0 []

theorem isTidy_new (config : Config) (schema : Schema) : (new config schema).IsTidy :=
  ⟨rfl, rfl, rfl, rfl, rfl⟩

/-- The first line is the header. -/
theorem writeHeader_eq (h : e.IsTidy) (hheader : e.encoder.header = none)
    (columns : List String) :
    ∃ writer, e.writeHeader isFull columns
        = (⟨(e.encoder.writeHeader columns).1, writer⟩, .ok (e.encoder.writeHeader columns).2) ∧
      IsTidy ⟨(e.encoder.writeHeader columns).1, writer⟩ := by
  rw [IsTidy, hheader] at h
  obtain ⟨writer, hrow, htidy⟩ := h.writeRow isFull (columns.map Text.bytes) rfl
  refine ⟨writer, ?_, ?_⟩
  · rw [writeHeader, hrow]
    rfl
  · rw [List.length_map] at htidy
    exact htidy

/-- A record has a field for every column. -/
theorem writeRecord_eq (h : e.IsTidy) {columns : List String}
    (hheader : e.encoder.header = some columns) (r : Record) :
    ∃ writer, e.writeRecord isFull columns r
        = (⟨(e.encoder.writeRecord columns r).1, writer⟩,
            .ok (e.encoder.writeRecord columns r).2) ∧
      IsTidy ⟨(e.encoder.writeRecord columns r).1, writer⟩ := by
  rw [IsTidy, hheader] at h
  have hlength : ((Encoder.cells columns r).map Text.bytes).length = columns.length := by
    rw [List.length_map, Encoder.cells, List.length_map]
  obtain ⟨writer, hrow, htidy⟩ := h.writeRow isFull
    ((Encoder.cells columns r).map Text.bytes) hlength.symm
  refine ⟨writer, ?_, ?_⟩
  · rw [writeRecord, hrow]
    rfl
  · rw [hlength] at htidy
    show writer.Holds _ (e.encoder.header.map List.length) 0 []
    rw [hheader]
    exact htidy

/-- What is due before the first record never fails. -/
theorem start_eq (h : e.IsTidy) :
    ∃ writer, e.start isFull = (⟨e.encoder.start.1, writer⟩, .ok e.encoder.start.2) ∧
      IsTidy ⟨e.encoder.start.1, writer⟩ := by
  cases hschema : e.encoder.schema with
  | inferred =>
      rw [start, Encoder.start, hschema]
      exact ⟨e.writer, rfl, h⟩
  | fixed columns =>
      cases hheader : e.encoder.header with
      | some _ =>
          rw [start, Encoder.start, hschema, hheader]
          exact ⟨e.writer, rfl, h⟩
      | none =>
          rw [start, Encoder.start, hschema, hheader]
          exact writeHeader_eq isFull h hheader columns

/-- A record never fails, with its header or without. -/
theorem encode_eq (h : e.IsTidy) (r : Record) :
    ∃ writer, e.encode isFull r = (⟨(e.encoder.encode r).1, writer⟩, .ok (e.encoder.encode r).2) ∧
      IsTidy ⟨(e.encoder.encode r).1, writer⟩ := by
  cases hheader : e.encoder.header with
  | some columns =>
      rw [encode, Encoder.encode, hheader]
      exact writeRecord_eq isFull h hheader r
  | none =>
      obtain ⟨writer, hhead, htidy⟩ := writeHeader_eq isFull h hheader
        (e.encoder.columnsFor r)
      obtain ⟨writer', hbody, htidy'⟩ := writeRecord_eq isFull htidy rfl r
      refine ⟨writer', ?_, ?_⟩
      · rw [encode, Encoder.encode, hheader]
        dsimp only
        rw [hhead]
        dsimp only
        rw [hbody]
      · rw [Encoder.encode, hheader]
        exact htidy'

end LineEncoder

end ResponseExport.Csv
