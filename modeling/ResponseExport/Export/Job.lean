import ResponseExport.Time.Instant

/-!
# `ResponseExport.Export.Job`: background exports

An export is asked for by a `Request`; its `Job` records how far it is. A job is pending, then
processing, then done or failed, and a finished job knows its file and the link to it.
-/

set_option autoImplicit false

namespace ResponseExport.Export

/-- How far a job is. -/
inductive Status where
  | pending
  | processing
  | done
  | failed
  deriving Repr, DecidableEq

namespace Status

/-- The stored text of a status. -/
def text : Status → String
  | .pending => "pending"
  | .processing => "processing"
  | .done => "done"
  | .failed => "error"

/-- Reads a stored status. -/
def ofText? (s : String) : Option Status :=
  if s = "pending" then some .pending
  else if s = "processing" then some .processing
  else if s = "done" then some .done
  else if s = "error" then some .failed
  else none

/-- Is a job of this status over? -/
def isTerminal : Status → Bool
  | .done => true
  | .failed => true
  | _ => false

end Status

/-- A request to export one survey for its owner. -/
structure Request where
  id : String
  user : String
  survey : String
  deriving Repr, DecidableEq

/-- What is known of an export. -/
structure Job where
  id : String
  survey : String
  user : String
  /-- When the job was last written. -/
  updated : Time.Instant
  status : Status
  /-- Where the finished file is served. -/
  link : Option String
  /-- The name of the finished file. -/
  file : Option String
  deriving Repr, DecidableEq

end ResponseExport.Export
