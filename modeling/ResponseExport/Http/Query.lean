import ResponseExport.Error.Service
import ResponseExport.Http.Target
import ResponseExport.Text.Blank
import ResponseExport.Text.Numeral
import ResponseExport.Text.Urlencoded

/-!
# `ResponseExport.Http.Query`: the parameters of a request

Parameters of other names are passed over, and no parameter may be given twice. The first fault
from the left counts.
-/

set_option autoImplicit false

namespace ResponseExport.Http

/-- Why the parameters of a request cannot be read. -/
inductive QueryError where
  /-- A parameter is given twice. -/
  | duplicate (name : String)
  /-- A number cannot be read. -/
  | numeral (e : Text.NumeralError)
  deriving Repr, DecidableEq

/-- The wording of a query's fault. -/
def QueryError.message : QueryError → String
  | .duplicate name => s!"duplicate field `{name}`"
  | .numeral e => e.message

/-- A query's fault as the caller sees it. -/
def QueryError.toService (e : QueryError) : ServiceError :=
  .badRequest ("Failed to deserialize query string: " ++ e.message)

/-- The parameters that the routes know. -/
structure Query where
  survey : Option String := none
  after : Option String := none
  pageSize : Option Nat := none
  deriving Repr, DecidableEq

namespace Query

/-- Takes one parameter. Only listings know `after` and `pageSize`. -/
def take (listing : Bool) (q : Query) (name value : String) : Except QueryError Query :=
  if name = "survey" then
    if q.survey.isSome then .error (.duplicate name) else .ok { q with survey := some value }
  else if listing ∧ name = "after" then
    if q.after.isSome then .error (.duplicate name) else .ok { q with after := some value }
  else if listing ∧ name = "pageSize" then
    if q.pageSize.isSome then .error (.duplicate name)
    else
      match Text.readNumeral Text.max64 value with
      | .ok n => .ok { q with pageSize := some n }
      | .error e => .error (.numeral e)
  else .ok q

/-- Takes parameters from left to right. -/
def takeAll (listing : Bool) (q : Query) : List (String × String) → Except QueryError Query
  | [] => .ok q
  | (name, value) :: rest =>
    match q.take listing name value with
    | .ok q => takeAll listing q rest
    | .error e => .error e

/-- Reads the parameters of a target. -/
def read (listing : Bool) (t : Target) : Except ServiceError Query :=
  let pairs := Text.queryPairs (Text.bytes (t.query.getD ""))
  (takeAll listing {} pairs).mapError QueryError.toService

/-- The survey, without the blanks around it, if there is more than blanks. -/
def survey? (q : Query) : Option String :=
  match q.survey with
  | some s => if (Text.trim s).isEmpty then none else some (Text.trim s)
  | none => none

/-- The fault of a request that names no survey. -/
def noSurvey : ServiceError := .ofField (.required "survey")

/-- The survey, which has to be named. -/
def requiredSurvey (q : Query) : Except ServiceError String :=
  match q.survey? with
  | some s => .ok s
  | none => .error noSurvey

end Query

end ResponseExport.Http
