import ResponseExport.Error.Domain

/-!
# `ResponseExport.Error.Export`: faults of an export
-/

set_option autoImplicit false

namespace ResponseExport

/-- A fault of an export. -/
inductive ExportError where
  /-- A file or stream fails. -/
  | io (reason : String)
  /-- A row cannot be written. -/
  | serialization (reason : String)
  /-- The queue takes no more requests at all. -/
  | channelClosed
  /-- The queue takes no more requests for now. -/
  | queueFull
  /-- The rows cannot be read. -/
  | database (reason : String)
  deriving Repr, DecidableEq

/-- The wording of an export's fault. -/
def ExportError.message : ExportError → String
  | .io reason => s!"I/O error: {reason}"
  | .serialization reason => s!"Serialization error: {reason}"
  | .channelClosed => "Communication channel closed"
  | .queueFull => "Export queue is full"
  | .database reason => s!"Database error: {reason}"

/-- A fault of the survey data, met by an export. -/
def ExportError.ofDomain (e : DomainError) : ExportError := .database e.message

end ResponseExport
