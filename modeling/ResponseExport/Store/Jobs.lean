import ResponseExport.Error.Domain
import ResponseExport.Export.Job
import ResponseExport.Store.Tables
import ResponseExport.Time.Reading

/-!
# `ResponseExport.Store.Jobs`: the table of export jobs

A job is created pending, moved on while it is unfinished, and marked done with its file. Every
change writes the time at which it happens. Each change is one pass over the rows; what it answers
is the row as it then stands.
-/

set_option autoImplicit false

namespace ResponseExport.Store

open Export (Job Status)

namespace JobRow

/-- Is a job waiting or at work? -/
def isUnfinished (j : JobRow) : Bool := j.status == "pending" || j.status == "processing"

/-- What a row says, if its status is known and its time can be read. -/
def job (j : JobRow) : Except DomainError Job :=
  match Status.ofText? j.status with
  | none => .error (.inconsistent s!"Invalid status {j.status} in export_status")
  | some status =>
    match Time.Instant.read j.updated with
    | .error e => .error (.inconsistent s!"Bad timestamp: {e.message}")
    | .ok updated => .ok ⟨j.id, j.survey, j.user, updated, status, j.link, j.file⟩

/-- Does a row come no later than another in a status feed? The latest written comes first, rows
written at the same time come by id. -/
def isBefore (a b : JobRow) : Bool :=
  match Text.order b.updated a.updated with
  | .lt => true
  | .eq => Text.order a.id b.id != .gt
  | .gt => false

end JobRow

namespace Tables

/-- The row of a job. -/
def jobRow? (t : Tables) (id : String) : Option JobRow := t.jobs.find? fun j => j.id == id

/-- The job of this id. -/
def findJob (t : Tables) (id : String) : Except DomainError Job :=
  match t.jobRow? id with
  | some j => j.job
  | none => .error (.store (.notFound "export_status" id))

/-- Adds a pending job, unless its id is taken. -/
def createJob (t : Tables) (now id user survey : String) : Except DomainError Tables :=
  if t.jobs.any fun j => j.id == id then
    .error (.store (.engine (.refused 1555 "UNIQUE constraint failed: export_status.export_id")))
  else
    .ok { t with jobs := t.jobs ++ [⟨id, survey, user, now, Status.pending.text, none, none⟩] }

/-- Moves an unfinished job to a status. -/
def moveJob (t : Tables) (now id : String) (status : Status) : Tables :=
  { t with jobs := t.jobs.map fun j =>
      if j.id = id ∧ j.isUnfinished then { j with updated := now, status := status.text } else j }

/-- Marks a job done, with the link and the name of its file. -/
def finishJob (t : Tables) (now id link file : String) : Tables :=
  { t with jobs := t.jobs.map fun j =>
      if j.id = id then
        { j with updated := now, status := Status.done.text, link := some link, file := some file }
      else j }

/-- Fails every unfinished job. -/
def failJobs (t : Tables) (now : String) : Tables :=
  { t with jobs := t.jobs.map fun j =>
      if j.isUnfinished then { j with updated := now, status := Status.failed.text } else j }

/-- The jobs of a user, or those of one survey, latest written first. -/
def listJobs (t : Tables) (user : String) (survey : Option String) :
    Except DomainError (List Job) :=
  let mine := t.jobs.filter fun j =>
    j.user == user &&
      match survey with
      | some s => j.survey == s
      | none => true
  (mine.mergeSort JobRow.isBefore).mapM JobRow.job

end Tables

/-! ### The table behind its connection -/

/-- Adds a pending job, unless its id is taken. -/
def createJob (s : Store) (now id user survey : String) : Store × Except DomainError Job :=
  if s.isOpen then
    match s.tables.createJob now id user survey with
    | .error e => (s, .error e)
    | .ok tables => ({ s with tables }, tables.findJob id)
  else (s, .error .closed)

/-- Moves an unfinished job to a status; a finished one stays as it is. -/
def moveJob (s : Store) (now id : String) (status : Status) : Store × Except DomainError Job :=
  if s.isOpen then
    let tables := s.tables.moveJob now id status
    ({ s with tables }, tables.findJob id)
  else (s, .error .closed)

/-- Marks a job done, with the link and the name of its file. -/
def finishJob (s : Store) (now id link file : String) : Store × Except DomainError Job :=
  if s.isOpen then
    let tables := s.tables.finishJob now id link file
    ({ s with tables }, tables.findJob id)
  else (s, .error .closed)

/-- The job of this id. -/
def findJob (s : Store) (id : String) : Except DomainError Job :=
  if s.isOpen then s.tables.findJob id else .error .closed

/-- The jobs of a user, or those of one survey, latest written first. -/
def listJobs (s : Store) (user : String) (survey : Option String) :
    Except DomainError (List Job) :=
  if s.isOpen then s.tables.listJobs user survey else .error .closed

/-- Fails every unfinished job, and counts them. -/
def failJobs (s : Store) (now : String) : Store × Except DomainError Nat :=
  if s.isOpen then
    ({ s with tables := s.tables.failJobs now },
      .ok (s.tables.jobs.countP JobRow.isUnfinished))
  else (s, .error .closed)

end ResponseExport.Store
