import ResponseExport.Error.Service
import ResponseExport.Export.Directory
import ResponseExport.Export.FileName
import ResponseExport.Export.Source
import ResponseExport.Store.Jobs

/-!
# `ResponseExport.Export.Service`: exports and their files

The service creates jobs, writes the file of an export page by page, and opens finished files for
their owners. Writing a file is a `Task` that goes through stages; each stage touches the table of
jobs, the directory or the source of rows once, so other tasks and callers may act between two
stages. A task that fails removes its file and leaves its job failed.
-/

set_option autoImplicit false

namespace ResponseExport.Export

open Survey (Response Cursor Filter)

/-- The service with everything that it works on. -/
structure Service where
  store : Store
  directory : Directory
  /-- What else stands on the disk, as seen from the place of the directory. -/
  outside : Disk := {}
  source : Source
  /-- How many pages the source was asked for. -/
  calls : Nat := 0
  /-- What stands before an export's id in the link to its file. -/
  baseUrl : String := "/api/v1/exports"
  pageSize : Nat := 1000
  /-- The time by the clock. -/
  now : Time.Instant

namespace Service

/-- The time as it is stored in the table of jobs. -/
def stamp (s : Service) : String := s.now.millisText

/-- The service a millisecond later. -/
def tick (s : Service) : Service :=
  let nanos := s.now.nanos + Time.milliNanos
  { s with now := ⟨s.now.seconds + (nanos / Time.secondNanos : Nat), nanos % Time.secondNanos⟩ }

/-- The link to the file of an export. -/
def link (baseUrl id : String) : String := baseUrl ++ "/" ++ id ++ "/file"

/-! ### The table of jobs -/

/-- Adds a pending job. -/
def create (s : Service) (id user survey : String) : Service × Except DomainError Job :=
  let (store, r) := s.store.createJob s.stamp id user survey
  ({ s with store }, r)

/-- Moves an unfinished job to a status. -/
def move (s : Service) (id : String) (status : Status) : Service × Except DomainError Job :=
  let (store, r) := s.store.moveJob s.stamp id status
  ({ s with store }, r)

/-- Marks a job done with its file. -/
def markDone (s : Service) (id file : String) : Service × Except DomainError Job :=
  let (store, r) := s.store.finishJob s.stamp id (link s.baseUrl id) file
  ({ s with store }, r)

/-- Fails the jobs that an earlier run left unfinished, and counts them. -/
def failUnfinished (s : Service) : Service × Except ServiceError Nat :=
  let (store, r) := s.store.failJobs s.stamp
  ({ s with store }, r.mapError .domain)

/-- The jobs of a user, or those of one survey. -/
def list (s : Service) (user : String) (survey : Option String) : Except ServiceError (List Job) :=
  (s.store.listJobs user survey).mapError .domain

/-- Fails the job of a request that will never run. If that fails too, the job stays as it is. -/
def abandon (s : Service) (r : Request) : Service := (s.move r.id .failed).1

/-! ### Rows -/

/-- The rows that a filter wants, all of them at once. -/
def rows? (s : Service) (f : Filter) : Option (Service × List Item) :=
  (s.source.walk? s.store f s.pageSize s.calls).map fun w => ({ s with calls := w.calls }, w.items)

/-- The first row that a filter wants, of a stream that is then left alone. -/
def firstRow? (s : Service) (f : Filter) : Option (Service × Option Item) :=
  (s.source.first? s.store f s.pageSize s.calls).map fun (item, calls) => ({ s with calls }, item)

/-! ### Files -/

/-- What is said of an export that cannot be shown. -/
def notFinished (id : String) : ServiceError := .notFound s!"No finished export {id}"

/-- Opens the file of a user's finished export. Unknown ids, other users' jobs and unfinished jobs
all look the same. -/
def openFile (s : Service) (user id : String) : Except ServiceError (String × Target) :=
  match s.store.findJob id with
  | .error (.store (.notFound _ _)) => .error (notFinished id)
  | .error e => .error (.domain e)
  | .ok job =>
    if job.user ≠ user ∨ job.status ≠ .done then .error (notFinished id)
    else
      match job.file with
      | none => .error (notFinished id)
      | some name =>
        match s.directory.locate s.outside name with
        | .ok target => .ok (name, target)
        | .error .notFound => .error (notFinished id)
        | .error e => .error (.export (.io e.message))

end Service

/-! ### Writing a file -/

/-- How far the writing of a file is. -/
inductive Stage where
  /-- The job is to be marked as being processed. -/
  | marking
  /-- The file is to be made. -/
  | preparing
  /-- The file of this name is being written; the next page starts behind `after`. -/
  | writing (file : String) (w : Csv.Writer) (after : Option Cursor)
  /-- The file is complete, with these figures, and the job is to be marked done. -/
  | finishing (file : String) (stats : Csv.Stats)
  /-- The job is to be marked failed. -/
  | failing (e : ExportError)
  /-- The task is over. -/
  | over (result : Except ExportError Job)
  /-- The task can neither go on nor end: its channel cannot have the size of a page. -/
  | broken (file : String)

/-- A request that is being worked on. -/
structure Task where
  request : Request
  stage : Stage

namespace Task

/-- A request before anything is done about it. -/
def new (r : Request) : Task := ⟨r, .marking⟩

/-- The file of an export before the first byte. -/
def newWriter : Csv.Writer := Csv.Writer.new {} Survey.responseSchema {}

/-- The file that a writer has written so far replaces the one in the directory. -/
def save (s : Service) (file : String) (w : Csv.Writer) : Service :=
  { s with directory := s.directory.write file w.sink.data }

/-- A task that has to fail while its file is being written removes the file. -/
def failWriting (s : Service) (t : Task) (file : String) (e : ExportError) : Service × Task :=
  ({ s with directory := s.directory.remove file }, { t with stage := .failing e })

/-- Marks the job as being processed. -/
def mark (s : Service) (t : Task) : Service × Task :=
  match s.move t.request.id .processing with
  | (s, .ok _) => (s, { t with stage := .preparing })
  | (s, .error e) => (s, { t with stage := .over (.error (.ofDomain e)) })

/-- Makes the directory and the file, and writes the header. -/
def prepare (s : Service) (t : Task) : Service × Task :=
  let file := FileName.stored t.request.survey t.request.id s.now
  match s.directory.make with
  | .error e => (s, { t with stage := .failing (.io e.message) })
  | .ok directory =>
    let s := { s with directory }
    match directory.create file with
    | .error e => (s, { t with stage := .failing (.io e.message) })
    | .ok directory =>
      let s := { s with directory }
      if isPossible s.pageSize then
        match newWriter.begin ofSinkFault with
        | (w, .ok ()) => (save s file w, { t with stage := .writing file w none })
        | (_, .error e) => failWriting s t file e
      else (s, { t with stage := .broken file })

/-- The filter of a request. -/
def filter (t : Task) : Filter := .survey t.request.user t.request.survey

/-- Asks for one page and writes its rows; behind the last page, completes the file. -/
def writePage (s : Service) (t : Task) (file : String) (w : Csv.Writer) (after : Option Cursor) :
    Service × Task :=
  let size := atLeastOne s.pageSize
  let answer := s.source.pages s.store t.filter s.calls after size
  let s := { s with calls := s.calls + 1 }
  match answer with
  | .error e => failWriting s t file (.ofDomain e)
  | .ok rows =>
    match w.writeRecords ofSinkFault (toRecords (rows.map .ok)) with
    | (_, .error e) => failWriting s t file e
    | (w, .ok ()) =>
      if rows.length < size then
        match w.finish ofSinkFault with
        | (_, .error e) => failWriting s t file e
        | (w, .ok stats) => (save s file w, { t with stage := .finishing file stats })
      else (save s file w, { t with stage := .writing file w (cursorAfter after rows) })

/-- Marks the job done. -/
def complete (s : Service) (t : Task) (file : String) : Service × Task :=
  let (s, r) := s.markDone t.request.id file
  (s, { t with stage := .over (r.mapError .ofDomain) })

/-- Marks the job failed. -/
def fail (s : Service) (t : Task) (e : ExportError) : Service × Task :=
  match s.move t.request.id .failed with
  | (s, .ok _) => (s, { t with stage := .over (.error e) })
  | (s, .error e) => (s, { t with stage := .over (.error (.ofDomain e)) })

/-- One step of a task. -/
def step (s : Service) (t : Task) : Service × Task :=
  match t.stage with
  | .marking => mark s t
  | .preparing => prepare s t
  | .writing file w after => writePage s t file w after
  | .finishing file _ => complete s t file
  | .failing e => fail s t e
  | .over _ => (s, t)
  | .broken _ => (s, t)

/-- The file system refuses a task its file, or what is to be written to it. -/
def fault (s : Service) (t : Task) (message : String) : Option (Service × Task) :=
  match t.stage with
  | .preparing => some (s, { t with stage := .failing (.io message) })
  | .writing file _ _ => some (failWriting s t file (.io message))
  | _ => none

/-- Has a task ended? -/
def isOver (t : Task) : Bool :=
  match t.stage with
  | .over _ => true
  | _ => false

/-- Takes steps, a millisecond each, for at most `steps` steps. -/
def run : (steps : Nat) → Service → Task → Service × Task
  | 0, s, t => (s, t)
  | n + 1, s, t =>
    match t.stage with
    | .over _ => (s, t)
    | .broken _ => (s, t)
    | _ =>
      let (s, t) := t.step s
      run n s.tick t

end Task

/-- More steps than any task takes. -/
def Service.taskSteps (s : Service) : Nat := s.source.walkSteps s.store + 8

/-- Runs a request to its end. `none` if it has none: the task breaks down. -/
def Service.process (s : Service) (r : Request) : Service × Option (Except ExportError Job) :=
  match (Task.new r).run s.taskSteps s with
  | (s, ⟨_, .over result⟩) => (s, some result)
  | (s, _) => (s, none)

end ResponseExport.Export
