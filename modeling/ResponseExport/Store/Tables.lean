import ResponseExport.Survey.Response

/-!
# `ResponseExport.Store.Tables`: the tables and their rules

Four tables hold the users, their surveys, the responses and the export jobs, each as a list in the
order of insertion. A row is taken in only if it breaks none of its table's rules; they are asked
in a fixed order: values that have to be there, values that a column admits, keys that have to be
unique, and rows of other tables that it points to.
-/

set_option autoImplicit false

namespace ResponseExport.Store

/-- Someone who owns surveys. -/
structure User where
  id : String
  email : String
  deriving Repr, DecidableEq

/-- One version of a survey. -/
structure SurveyRow where
  id : String
  /-- The id of the user who owns it. -/
  owner : String
  name : String
  shortcode : String
  created : String
  metadata : Option String
  deriving Repr, DecidableEq

/-- An export job as it is stored. -/
structure JobRow where
  id : String
  survey : String
  user : String
  /-- When the row was last written. -/
  updated : String
  status : String
  link : Option String
  file : Option String
  deriving Repr, DecidableEq

/-- What the tables hold. -/
structure Tables where
  users : List User := []
  surveys : List SurveyRow := []
  responses : List Survey.Response := []
  jobs : List JobRow := []
  deriving Repr, DecidableEq

/-- Why a row is not taken in. -/
inductive Refusal where
  | unique
  | foreignKey
  | notNull
  | check
  deriving Repr, DecidableEq

namespace Tables

/-- Takes in a user. Ids are unique, and so are addresses. -/
def addUser (t : Tables) (id email : Option String) : Except Refusal Tables :=
  match id, email with
  | some id, some email =>
    if t.users.any fun u => u.id == id || u.email == email then .error .unique
    else .ok { t with users := t.users ++ [⟨id, email⟩] }
  | _, _ => .error .notNull

/-- Takes in a version of a survey. Its owner has to be there. -/
def addSurvey (t : Tables) (id owner name shortcode created metadata : Option String) :
    Except Refusal Tables :=
  match id, owner, name, shortcode, created with
  | some id, some owner, some name, some shortcode, some created =>
    if t.surveys.any fun s => s.id == id then .error .unique
    else if t.users.any fun u => u.id == owner then
      .ok { t with surveys := t.surveys ++ [⟨id, owner, name, shortcode, created, metadata⟩] }
    else .error .foreignKey
  | _, _, _, _, _ => .error .notNull

/-- Takes in a response. Its cursor is unique, and its survey has to be there. -/
def addResponse (t : Tables) (r : Survey.Response) : Except Refusal Tables :=
  if t.responses.any fun r' => Survey.Cursor.at r' == Survey.Cursor.at r then .error .unique
  else if t.surveys.any fun s => s.id == r.survey then
    .ok { t with responses := t.responses ++ [r] }
  else .error .foreignKey

/-- The statuses that the table of jobs admits. -/
def isKnownStatus (s : String) : Bool :=
  s == "pending" || s == "processing" || s == "done" || s == "error"

/-- Takes in a job, with or without a look at its status. -/
def addJob (t : Tables) (checked : Bool) (id survey user updated status link file : Option String) :
    Except Refusal Tables :=
  match id, survey, user, updated, status with
  | some id, some survey, some user, some updated, some status =>
    if checked && !isKnownStatus status then .error .check
    else if t.jobs.any fun j => j.id == id then .error .unique
    else .ok { t with jobs := t.jobs ++ [⟨id, survey, user, updated, status, link, file⟩] }
  | _, _, _, _, _ => .error .notNull

end Tables

end ResponseExport.Store

namespace ResponseExport

/-- The tables behind a connection, which may be closed. -/
structure Store where
  isOpen : Bool := true
  tables : Store.Tables := {}
  deriving Repr, DecidableEq

/-- The store after its connection is closed. -/
def Store.close (s : Store) : Store := { s with isOpen := false }

end ResponseExport
