import ResponseExport.Batch.Run
import ResponseExport.Store.Opening

/-!
# `ResponseExport.Batch.Command`: the batch exporter on a disk

`Batch.command` is the whole command, from its arguments, its environment and the disk on which it
runs to its exit code, what it writes, and the disk that it leaves. Variables are taken from a file
in the working directory, too, and the database is looked for on the disk.
-/

set_option autoImplicit false

namespace ResponseExport.Batch

/-- The name of the file of variables. -/
def variablesFile : String := ".env"

/-- Opens the database at an address. `content` tells what a file of a disk holds. -/
def openDatabase (content : Disk → Place → Store.Content) (url : String) :
    StateM Disk (Except StoreError Store) := do
  let disk ← get
  match Store.connect url disk with
  | .error e => return .error e
  | .ok o =>
    set (o.leave disk)
    return o.prepare (content disk)

/-- How the command ends. -/
structure Ending where
  code : Nat
  /-- What was written to standard output. -/
  output : List UInt8 := []
  /-- What was written to standard error. -/
  errors : List UInt8 := []
  disk : Disk

/-- How the command ends if there is nothing to do. -/
def Obstacle.ending (o : Obstacle) (disk : Disk) : Ending :=
  { code := o.code, errors := Text.bytes o.complaint, disk }

/-- How the command ends after a run. -/
def Traces.ending (t : Traces) : Ending := ⟨t.code, t.output, t.errors, t.disk⟩

/-- Runs the command. `none` if it breaks down: its rows cannot be read in pages of the set size. -/
def command (args : List String) (environment : String → Option String) (disk : Disk)
    (content : Disk → Place → Store.Content) : Option Ending :=
  let file := (disk.read variablesFile).toOption.bind Text.ofBytes?
  match (plan args (withFile environment file) (openDatabase content)).run disk with
  | (.error o, disk) => some (o.ending disk)
  | (.ok p, disk) => (p.carryOut disk).map Traces.ending

end ResponseExport.Batch
