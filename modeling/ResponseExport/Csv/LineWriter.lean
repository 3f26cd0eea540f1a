import ResponseExport.Csv.Encoder
import ResponseExport.Error.Export

/-!
# `ResponseExport.Csv.LineWriter`: lines through buffers

A line is not made at once. Its fields are written one after another into a buffer, which is passed
on from time to time and once more behind the line; the line is all that was passed on since the
one before. The writer remembers how many fields the first line had and refuses to end a line of
another number. What is written of such a line stays where it is, in front of the next one.

A `LineEncoder` is an `Encoder` that writes its lines in this way.
-/

set_option autoImplicit false

namespace ResponseExport.Csv

/-- A line has not as many fields as the first one. -/
structure UnequalLengths where
  expected : Nat
  found : Nat
  deriving Repr, DecidableEq

/-- The wording of a line's fault. -/
def UnequalLengths.message (u : UnequalLengths) : String :=
  s!"CSV error: found record with {u.found} fields, "
    ++ s!"but the previous record has {u.expected} fields"

/-- A line and what is written of it. -/
structure LineWriter where
  dialect : Dialect
  /-- How many fields the first line had, once it is written. -/
  width : Option Nat := none
  /-- How many fields of the line are written. -/
  fields : Nat := 0
  /-- Is there a byte of the line? -/
  hasBytes : Bool := false
  /-- What is written and not passed on. -/
  buffered : List UInt8 := []
  /-- What is passed on and not taken. -/
  passed : List UInt8 := []
  deriving Repr, DecidableEq

namespace LineWriter

/-- Passes on what is written. -/
def pass (w : LineWriter) : LineWriter :=
  { w with buffered := [], passed := w.passed ++ w.buffered }

section
variable (isFull : List UInt8 → Bool)

/-- Writes a byte, and makes room for it before if there is none. -/
def put (w : LineWriter) (b : UInt8) : LineWriter :=
  let w := if isFull w.buffered then w.pass else w
  { w with buffered := w.buffered ++ [b], hasBytes := true }

/-- Writes bytes one by one. -/
def puts (w : LineWriter) (bs : List UInt8) : LineWriter := bs.foldl (put isFull) w

/-- Writes a field, behind a delimiter if it is not the first one. -/
def writeField (w : LineWriter) (f : List UInt8) : LineWriter :=
  let w := if w.fields = 0 then w else w.put isFull w.dialect.delimiter
  let w := w.puts isFull (w.dialect.field f)
  { w with fields := w.fields + 1 }

/-- Writes what ends a line, behind two quotes if the line has no byte. -/
def close (w : LineWriter) : LineWriter :=
  let w := if w.hasBytes then w else w.puts isFull [w.dialect.quote, w.dialect.quote]
  let w := w.put isFull Dialect.lineFeed
  { w with fields := 0, hasBytes := false }

/-- Ends a line, if it has as many fields as the first one. -/
def endLine (w : LineWriter) : LineWriter × Except UnequalLengths Unit :=
  let expected := w.width.getD w.fields
  if w.fields = expected then ({ w.close isFull with width := some expected }, .ok ())
  else (w, .error ⟨expected, w.fields⟩)

/-- Writes a line and takes it. -/
def writeRow (w : LineWriter) (fs : List (List UInt8)) :
    LineWriter × Except ExportError (List UInt8) :=
  match (fs.foldl (writeField isFull) w).endLine isFull with
  | (w, .error u) => (w, .error (.serialization u.message))
  | (w, .ok ()) => ({ w.pass with passed := [] }, .ok w.pass.passed)

end

end LineWriter

/-- A file that is being written, and the writer of its lines. -/
structure LineEncoder where
  encoder : Encoder
  writer : LineWriter
  deriving Repr, DecidableEq

namespace LineEncoder

/-- A file before anything is written. -/
def new (config : Config) (schema : Schema) : LineEncoder :=
  ⟨Encoder.new config schema, { dialect := config.dialect }⟩

section
variable (isFull : List UInt8 → Bool)

/-- Writes the header line, after the byte order mark if there is one. -/
def writeHeader (e : LineEncoder) (columns : List String) :
    LineEncoder × Except ExportError (List UInt8) :=
  match e.writer.writeRow isFull (columns.map Text.bytes) with
  | (writer, .error err) => ({ e with writer }, .error err)
  | (writer, .ok line) =>
    (⟨{ e.encoder with header := some columns }, writer⟩,
      .ok ((if e.encoder.config.bom then byteOrderMark else []) ++ line))

/-- What is due before the first record: the header of a fixed schema, unless it is written. -/
def start (e : LineEncoder) : LineEncoder × Except ExportError (List UInt8) :=
  match e.encoder.schema, e.encoder.header with
  | .fixed columns, none => e.writeHeader isFull columns
  | _, _ => (e, .ok [])

/-- Writes a record under given columns. What is dropped counts even if the line fails. -/
def writeRecord (e : LineEncoder) (columns : List String) (r : Record) :
    LineEncoder × Except ExportError (List UInt8) :=
  let (writer, line) := e.writer.writeRow isFull ((Encoder.cells columns r).map Text.bytes)
  (⟨{ e.encoder with dropped := e.encoder.dropped + Encoder.surplus columns r }, writer⟩, line)

/-- Writes a record, after the header if none is written yet. -/
def encode (e : LineEncoder) (r : Record) : LineEncoder × Except ExportError (List UInt8) :=
  match e.encoder.header with
  | some columns => e.writeRecord isFull columns r
  | none =>
    let columns := e.encoder.columnsFor r
    match e.writeHeader isFull columns with
    | (e, .error err) => (e, .error err)
    | (e, .ok head) =>
      match e.writeRecord isFull columns r with
      | (e, .error err) => (e, .error err)
      | (e, .ok body) => (e, .ok (head ++ body))

end

end LineEncoder

end ResponseExport.Csv
