import ResponseExport.Error.Export

/-!
# `ResponseExport.Error.Service`: faults as callers see them

Every fault ends up in one of these kinds. Only requests that the caller can mend are answered with
a message; the others give nothing away.
-/

set_option autoImplicit false

namespace ResponseExport

/-- A fault of the service. -/
inductive ServiceError where
  | domain (e : DomainError)
  | «export» (e : ExportError)
  | badRequest (reason : String)
  | notFound (reason : String)
  | configuration (reason : String)
  | unavailable (reason : String)
  | internal (reason : String)
  deriving Repr, DecidableEq

namespace ServiceError

/-- The wording of a service's fault. -/
def message : ServiceError → String
  | .domain e => s!"Domain error: {e.message}"
  | .export e => s!"Export error: {e.message}"
  | .badRequest reason => s!"Bad request: {reason}"
  | .notFound reason => s!"Not found: {reason}"
  | .configuration reason => s!"Configuration error: {reason}"
  | .unavailable reason => s!"Service unavailable: {reason}"
  | .internal reason => s!"Internal error: {reason}"

/-- A fault of a field of the request. -/
def ofField (e : FieldError) : ServiceError := .domain (.field e)

/-- A fault of the store. -/
def ofStore (e : StoreError) : ServiceError := .domain (.store e)

/-- The HTTP status of a fault. -/
def status : ServiceError → Nat
  | .badRequest _ => 400
  | .notFound _ => 404
  | .domain (.field _) => 400
  | .unavailable _ => 503
  | _ => 500

/-- The text that a caller is shown: none for a fault on this side. -/
def shown? (e : ServiceError) : Option String :=
  if 500 ≤ e.status then none
  else
    match e with
    | .badRequest reason => some reason
    | .notFound reason => some reason
    | e => some e.message

end ServiceError

end ResponseExport
