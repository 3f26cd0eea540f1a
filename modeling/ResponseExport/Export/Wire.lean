import ResponseExport.Csv.Writer
import ResponseExport.Error.Export
import ResponseExport.Export.Job
import ResponseExport.Json.Printer
import ResponseExport.Json.Record
import ResponseExport.Time.Reading

/-!
# `ResponseExport.Export.Wire`: jobs, requests, figures and faults of exports in JSON
-/

set_option autoImplicit false

namespace ResponseExport

open Json (Value Doc)

namespace Export

/-- A status as a value. -/
def Status.toJson (s : Status) : Value := .string s.text

/-- Reads a status. -/
def Status.ofDoc? (d : Doc) : Option Status :=
  match d.variant? with
  | some (name, payload) => if Doc.isUnit payload then Status.ofText? name else none
  | none => none

/-- A job as it appears in the status feed. The name of its file is kept back. -/
def Job.toJson (j : Job) : Value :=
  .object
    [("export_id", .string j.id),
      ("survey_id", .string j.survey),
      ("user_id", .string j.user),
      ("updated", .string j.updated.text),
      ("status", j.status.toJson),
      ("export_link", Value.ofOption .string j.link)]

/-- The names of the members of a job. -/
def Job.fieldNames : List String :=
  ["export_id", "survey_id", "user_id", "updated", "status", "export_link"]

/-- A field that has to be an instant. -/
def instant? (d : Option Doc) : Option Time.Instant :=
  (Doc.text? d).bind fun s => (Time.Instant.readRelaxed s).toOption

/-- Reads a job. -/
def Job.ofDoc? (d : Doc) : Option Job := do
  match ← d.fields? Job.fieldNames with
  | [id, survey, user, updated, status, link] =>
    return {
      id := ← Doc.text? id
      survey := ← Doc.text? survey
      user := ← Doc.text? user
      updated := ← instant? updated
      status := ← status.bind Status.ofDoc?
      link := ← Doc.optional? Doc.text? link
      file := none }
  | _ => none

/-- A request as a value. -/
def Request.toJson (r : Request) : Value :=
  .object
    [("export_id", .string r.id), ("user_id", .string r.user), ("survey_id", .string r.survey)]

/-- Reads a request. -/
def Request.ofDoc? (d : Doc) : Option Request := do
  match ← d.fields? ["export_id", "user_id", "survey_id"] with
  | [id, user, survey] =>
    return { id := ← Doc.text? id, user := ← Doc.text? user, survey := ← Doc.text? survey }
  | _ => none

/-- What a finished file amounts to, and how many milliseconds it took. -/
structure Figures where
  stats : Csv.Stats
  milliseconds : Nat
  deriving Repr, DecidableEq

/-- The figures of a file as a value. -/
def Figures.toJson (f : Figures) : Value :=
  .object
    [("records_written", .ofNat f.stats.records),
      ("bytes_written", .ofNat f.stats.bytes),
      ("dropped_fields", .ofNat f.stats.dropped),
      ("duration_ms", .ofNat f.milliseconds)]

/-- Reads the figures of a file. -/
def Figures.ofDoc? (d : Doc) : Option Figures := do
  match ← d.fields? ["records_written", "bytes_written", "dropped_fields", "duration_ms"] with
  | [records, bytes, dropped, milliseconds] =>
    return {
      stats := {
        records := ← Doc.count? records
        bytes := ← Doc.count? bytes
        dropped := ← Doc.count? dropped }
      milliseconds := ← Doc.count? milliseconds }
  | _ => none

end Export

/-- An export's fault as a value. -/
def ExportError.toJson : ExportError → Value
  | .io reason => .object [("Io", .string reason)]
  | .serialization reason => .object [("Serialization", .string reason)]
  | .channelClosed => .string "ChannelClosed"
  | .queueFull => .string "QueueFull"
  | .database reason => .object [("Database", .string reason)]

/-- Reads an export's fault. -/
def ExportError.ofDoc? (d : Doc) : Option ExportError :=
  match d.variant? with
  | none => none
  | some (name, payload) =>
    if name = "Io" then (Doc.text? payload).map .io
    else if name = "Serialization" then (Doc.text? payload).map .serialization
    else if name = "Database" then (Doc.text? payload).map .database
    else if name = "ChannelClosed" ∧ Doc.isUnit payload then some .channelClosed
    else if name = "QueueFull" ∧ Doc.isUnit payload then some .queueFull
    else none

end ResponseExport
