import ResponseExport.Http.Message

/-!
# `ResponseExport.Http.Route`: the routes of the service

A path leads to a route if it has its parts, letter by letter. Only the id in the path of a file
may be anything that has no slash, even nothing.
-/

set_option autoImplicit false

namespace ResponseExport.Http

/-- What can be read from the service. -/
inductive Resource where
  | health
  /-- Responses page by page. -/
  | listing
  /-- All responses to a survey. -/
  | responses
  /-- The versions of a survey. -/
  | forms
  /-- Each respondent's first and last answer. -/
  | spans
  /-- How far the exports are. -/
  | status
  /-- The file of an export, whose id is as it stands in the path. -/
  | file (id : String)
  deriving Repr, DecidableEq

/-- Where a path leads. -/
inductive Route where
  /-- To something that can be read. -/
  | resource (r : Resource)
  /-- To where exports are asked for. -/
  | request
  deriving Repr, DecidableEq

/-- What a route is asked for. -/
inductive Action where
  /-- Its answer. -/
  | answer
  /-- The head of its answer. -/
  | head
  /-- Something that it does not do. -/
  | refused
  deriving Repr, DecidableEq

namespace Route

/-- Where the parts of a path lead. -/
def ofParts? : List String → Option Route
  | ["", "healthcheck"] => some (.resource .health)
  | ["", "api", "v1", "responses"] => some (.resource .listing)
  | ["", "api", "v1", "responses", "csv"] => some (.resource .responses)
  | ["", "api", "v1", "responses", "form-data"] => some (.resource .forms)
  | ["", "api", "v1", "responses", "first-and-last"] => some (.resource .spans)
  | ["", "api", "v1", "exports"] => some .request
  | ["", "api", "v1", "exports", "status"] => some (.resource .status)
  | ["", "api", "v1", "exports", id, "file"] => some (.resource (.file id))
  | _ => none

/-- Where a path leads. -/
def ofPath? (path : String) : Option Route :=
  ofParts? ((path.toList.splitOnP (· == '/')).map String.ofList)

/-- The methods of a route. -/
def methods : Route → String
  | .resource _ => "GET,HEAD"
  | .request => "POST"

/-- What a method asks a route for. -/
def action (r : Route) (method : String) : Action :=
  match r with
  | .resource _ =>
    if method = "GET" then .answer
    else if method = "HEAD" then .head
    else .refused
  | .request => if method = "POST" then .answer else .refused

end Route

end ResponseExport.Http
