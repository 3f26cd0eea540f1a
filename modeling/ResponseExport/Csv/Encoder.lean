import ResponseExport.Csv.Format
import ResponseExport.Csv.Record
import ResponseExport.Text.Bytes
import ResponseExport.Text.Quoted

/-!
# `ResponseExport.Csv.Encoder`: records into bytes

The columns of a file are decided once, before its first record: they are given by the schema, or
they are the keys of the first record. From then on a record fills the columns, leaves those it
lacks empty, and its other values are dropped and counted.
-/

set_option autoImplicit false

namespace ResponseExport.Csv

/-- How the columns of a file are decided. -/
inductive Schema where
  /-- Known beforehand; the header is written even if there are no records. -/
  | fixed (columns : List String)
  /-- The keys of the first record; no records, no header. -/
  | inferred
  deriving Repr, DecidableEq

/-- How a file is written. -/
structure Config where
  dialect : Dialect := {}
  /-- Does the file start with a byte order mark? -/
  bom : Bool := false
  /-- How many records are written between two flushes. -/
  batchSize : Nat := 1000
  deriving Repr, DecidableEq

/-- The byte order mark in UTF-8. -/
def byteOrderMark : List UInt8 := [0xEF, 0xBB, 0xBF]

/-- The state of a file that is being written. -/
structure Encoder where
  config : Config
  schema : Schema
  /-- The columns, once the header is written. -/
  header : Option (List String)
  /-- How many values had no column. -/
  dropped : Nat
  deriving Repr, DecidableEq

namespace Encoder

/-- A file before anything is written. -/
def new (config : Config) (schema : Schema) : Encoder := ⟨config, schema, none, 0⟩

/-- A line of texts. -/
def lineOf (e : Encoder) (cells : List String) : List UInt8 :=
  e.config.dialect.line (cells.map Text.bytes)

/-- Writes the header line, after the byte order mark if there is one. -/
def writeHeader (e : Encoder) (columns : List String) : Encoder × List UInt8 :=
  ({ e with header := some columns },
    (if e.config.bom then byteOrderMark else []) ++ e.lineOf columns)

/-- What is due before the first record: the header of a fixed schema, unless it is written. -/
def start (e : Encoder) : Encoder × List UInt8 :=
  match e.schema, e.header with
  | .fixed columns, none => e.writeHeader columns
  | _, _ => (e, [])

/-- The columns that a first record brings about. -/
def columnsFor (e : Encoder) (r : Record) : List String :=
  match e.schema with
  | .fixed columns => columns
  | .inferred => r.keys

/-- The cells of a record under the columns of a file. -/
def cells (columns : List String) (r : Record) : List String :=
  columns.map fun c => (r.get? c).getD ""

/-- How many values of a record have no column. -/
def surplus (columns : List String) (r : Record) : Nat :=
  r.keys.countP fun k => !columns.contains k

/-- Writes a record under given columns. -/
def writeRecord (e : Encoder) (columns : List String) (r : Record) : Encoder × List UInt8 :=
  ({ e with dropped := e.dropped + surplus columns r }, e.lineOf (cells columns r))

/-- Writes a record, after the header if none is written yet. -/
def encode (e : Encoder) (r : Record) : Encoder × List UInt8 :=
  match e.header with
  | some columns => e.writeRecord columns r
  | none =>
    let columns := e.columnsFor r
    let (e, head) := e.writeHeader columns
    let (e, body) := e.writeRecord columns r
    (e, head ++ body)

/-- The state of a file for a log. -/
def describe (e : Encoder) : String :=
  let schema := match e.schema with
    | .fixed columns => s!"Fixed({Text.quotedList columns})"
    | .inferred => "Inferred"
  let header := match e.header with
    | some columns => s!"Some({Text.quotedList columns})"
    | none => "None"
  s!"CsvEncoder \x7b schema: {schema}, header: {header}, dropped_fields: {e.dropped} \x7d"

end Encoder

end ResponseExport.Csv
