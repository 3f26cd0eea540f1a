import ResponseExport.Error.Field
import ResponseExport.Error.Store

/-!
# `ResponseExport.Error.Domain`: faults of the survey data
-/

set_option autoImplicit false

namespace ResponseExport

/-- A fault in answering a question about the survey data. -/
inductive DomainError where
  /-- The store fails. -/
  | store (e : StoreError)
  /-- There is no such thing. -/
  | missing (entity id : String)
  /-- The question itself is wrong. -/
  | field (e : FieldError)
  /-- The data make no sense. -/
  | inconsistent (reason : String)
  deriving Repr, DecidableEq

/-- The wording of a domain's fault. -/
def DomainError.message : DomainError → String
  | .store e => s!"Database error: {e.message}"
  | .missing entity id => s!"Entity not found: {entity} with ID {id}"
  | .field e => s!"Validation error: {e.message}"
  | .inconsistent reason => s!"Internal error: {reason}"

/-- The fault of using a closed store. -/
def DomainError.closed : DomainError := .store (.engine .poolClosed)

end ResponseExport
