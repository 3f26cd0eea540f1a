import ResponseExport.Csv.Encoder
import ResponseExport.Csv.Sink

/-!
# `ResponseExport.Csv.Writer`: a file into a sink

The writer sends the header and then record after record to a sink, flushes after every batch and
once more at the end, and stops at the first error: one of the records' source or one of the sink.
What the sink holds by then stays.
-/

set_option autoImplicit false

namespace ResponseExport.Csv

/-- What a finished file amounts to. -/
structure Stats where
  /-- How many records were written. -/
  records : Nat
  /-- How many bytes were written. -/
  bytes : Nat
  /-- How many values had no column. -/
  dropped : Nat
  deriving Repr, DecidableEq

/-- A file that is being written into a sink. -/
structure Writer where
  encoder : Encoder
  sink : Sink
  /-- How many records are written. -/
  records : Nat
  /-- How many bytes are written. -/
  bytes : Nat
  /-- How many records are written since the last flush. -/
  sinceFlush : Nat
  deriving Repr, DecidableEq

namespace Writer

variable {ε : Type}

/-- A writer in front of its sink. -/
def new (config : Config) (schema : Schema) (sink : Sink) : Writer :=
  ⟨Encoder.new config schema, sink, 0, 0, 0⟩

/-- Sends bytes to the sink. -/
def send (w : Writer) (bs : List UInt8) : Writer × Except SinkFault Unit :=
  match w.sink.writeAll bs with
  | (sink, .ok ()) => ({ w with sink, bytes := w.bytes + bs.length }, .ok ())
  | (sink, .error f) => ({ w with sink }, .error f)

/-- Flushes the sink and starts a new batch. -/
def flush (w : Writer) : Writer × Except SinkFault Unit :=
  match w.sink.flush with
  | (sink, .ok ()) => ({ w with sink, sinceFlush := 0 }, .ok ())
  | (sink, .error f) => ({ w with sink }, .error f)

/-- Writes one record, and flushes if it completes a batch. -/
def writeRecord (w : Writer) (r : Record) : Writer × Except SinkFault Unit :=
  let (encoder, bs) := w.encoder.encode r
  match ({ w with encoder } : Writer).send bs with
  | (w, .error f) => (w, .error f)
  | (w, .ok ()) =>
    let w := { w with records := w.records + 1, sinceFlush := w.sinceFlush + 1 }
    if w.encoder.config.batchSize ≤ w.sinceFlush then w.flush else (w, .ok ())

/-- Writes what is due before the first record. -/
def begin (ofFault : SinkFault → ε) (w : Writer) : Writer × Except ε Unit :=
  let (encoder, head) := w.encoder.start
  match ({ w with encoder } : Writer).send head with
  | (w, .ok ()) => (w, .ok ())
  | (w, .error f) => (w, .error (ofFault f))

/-- Writes records up to the first error. -/
def writeRecords (ofFault : SinkFault → ε) (w : Writer) :
    List (Except ε Record) → Writer × Except ε Unit
  | [] => (w, .ok ())
  | .error e :: _ => (w, .error e)
  | .ok r :: rest =>
    match w.writeRecord r with
    | (w, .ok ()) => w.writeRecords ofFault rest
    | (w, .error f) => (w, .error (ofFault f))

/-- Flushes what is left of the last batch, and counts what was written. -/
def finish (ofFault : SinkFault → ε) (w : Writer) : Writer × Except ε Stats :=
  match w.flush with
  | (w, .ok ()) => (w, .ok ⟨w.records, w.bytes, w.encoder.dropped⟩)
  | (w, .error f) => (w, .error (ofFault f))

/-- Writes a whole file. -/
def writeAll (ofFault : SinkFault → ε) (w : Writer) (items : List (Except ε Record)) :
    Writer × Except ε Stats :=
  match w.begin ofFault with
  | (w, .error e) => (w, .error e)
  | (w, .ok ()) =>
    match w.writeRecords ofFault items with
    | (w, .error e) => (w, .error e)
    | (w, .ok ()) => w.finish ofFault

end Writer

end ResponseExport.Csv
