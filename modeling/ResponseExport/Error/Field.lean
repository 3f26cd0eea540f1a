/-!
# `ResponseExport.Error.Field`: what is wrong with a field of a request
-/

set_option autoImplicit false

namespace ResponseExport

/-- What is wrong with a field of a request. -/
inductive FieldError where
  /-- It is missing. -/
  | required (field : String)
  /-- It lies outside its bounds. -/
  | range (field low high : String)
  /-- Its text cannot be read. -/
  | format (field reason : String)
  deriving Repr, DecidableEq

/-- The wording of a field's fault. -/
def FieldError.message : FieldError → String
  | .required field => s!"Field '{field}' is required"
  | .range field low high => s!"Field '{field}' must be between {low} and {high}"
  | .format field reason => s!"Field '{field}' contains invalid format: {reason}"

end ResponseExport
