import ResponseExport.Batch.Arguments
import ResponseExport.Disk.Path
import ResponseExport.Error.Service
import ResponseExport.Export.Source
import ResponseExport.Settings.Basic
import ResponseExport.Settings.EnvFile

/-!
# `ResponseExport.Batch.Run`: the batch exporter

The command reads its arguments, then its settings, then opens the database; the first of these
that fails ends it. What is left is a `Plan`: `Plan.run` writes the wanted responses into a sink,
and `Plan.carryOut` says where they are found afterwards, be it on standard output or on a disk.
-/

set_option autoImplicit false

namespace ResponseExport.Batch

/-- What the command is about to do. -/
structure Plan where
  store : Store
  pageSize : Nat
  arguments : Arguments

/-- Why there is nothing to do. -/
inductive Obstacle where
  | usage (e : UsageError)
  | settings (e : ServiceError)
  | database (e : StoreError)
  deriving Repr, DecidableEq

namespace Obstacle

/-- The exit code of the command. -/
def code : Obstacle → Nat
  | .usage _ => 2
  | _ => 1

/-- What the command says: how it is used, if it was used wrongly. Everything else goes to the
log. -/
def complaint : Obstacle → String
  | .usage e => e.message ++ "\n" ++ Batch.usage ++ "\n"
  | _ => ""

end Obstacle

/-- The variables that the command sees: those of its environment, and those that a file adds. -/
def withFile (environment : String → Option String) (file : Option String) :
    String → Option String :=
  match file with
  | some file => Settings.EnvFile.extend environment file
  | none => environment

/-- Reads arguments and settings and opens the database. -/
def plan {m : Type → Type} [Monad m] (args : List String) (lookup : String → Option String)
    (database : String → m (Except StoreError Store)) : m (Except Obstacle Plan) :=
  match Arguments.read args with
  | .error e => pure (.error (.usage e))
  | .ok arguments =>
    match Settings.ofLookup lookup with
    | .error e => pure (.error (.settings e))
    | .ok settings => do
      match ← database settings.databaseUrl with
      | .error e => return .error (.database e)
      | .ok store => return .ok ⟨store, settings.pageSize, arguments⟩

/-- What a run leaves behind: its sink, and the figures or the error. -/
structure Outcome where
  sink : Csv.Sink
  result : Except ExportError Csv.Stats

namespace Plan

/-- Can the rows be read in pages of this size? -/
def isRunnable (p : Plan) : Bool := Export.isPossible p.pageSize

/-- Writes the wanted responses into a sink, if they can be read in pages of this size. -/
def run (p : Plan) (sink : Csv.Sink) : Option Outcome :=
  (Export.Source.table.walk? p.store p.arguments.filter p.pageSize 0).map fun w =>
    let (writer, result) := (Csv.Writer.new {} Survey.responseSchema sink).writeAll
      Export.ofSinkFault (Export.toRecords w.items)
    ⟨writer.sink, result⟩

end Plan

/-- The exit code of a command that ends in a result. -/
def exitCode : Except ExportError Csv.Stats → Nat
  | .ok _ => 0
  | .error _ => 1

/-- The exit code of a run. -/
def Outcome.code (o : Outcome) : Nat := exitCode o.result

/-- What the command leaves behind. -/
structure Traces where
  disk : Disk
  /-- What was written to standard output. -/
  output : List UInt8 := []
  /-- What was written to standard error. -/
  errors : List UInt8 := []
  /-- The figures or the error. -/
  result : Except ExportError Csv.Stats

/-- The exit code of the command. -/
def Traces.code (t : Traces) : Nat := exitCode t.result

/-- What is left if the bytes of a run go to an outlet. -/
def Outcome.leave (o : Outcome) (disk : Disk) : Outlet → Traces
  | .file p => { disk := disk.write p o.sink.data, result := o.result }
  | .device .output => { disk, output := o.sink.data, result := o.result }
  | .device .errors => { disk, errors := o.sink.data, result := o.result }
  | .device .full => { disk, result := .error (.io FileError.noSpace.message) }
  | .device _ => { disk, result := o.result }

/-- Carries out a plan, if the rows can be read in pages of its size. The file it names is made
first. -/
def Plan.carryOut (p : Plan) (disk : Disk) : Option Traces :=
  (p.run {}).map fun o =>
    match p.arguments.output with
    | none => o.leave disk (.device .output)
    | some path =>
      match disk.create path with
      | .error e => { disk, result := .error (.io e.message) }
      | .ok (disk, outlet) => o.leave disk outlet

end ResponseExport.Batch
