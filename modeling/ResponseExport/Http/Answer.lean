import ResponseExport.Csv.Chunks
import ResponseExport.Export.System
import ResponseExport.Export.Wire
import ResponseExport.Http.Query
import ResponseExport.Http.Route
import ResponseExport.Listing
import ResponseExport.Store.Forms

/-!
# `ResponseExport.Http.Answer`: the answers of the service

Every route but the one for health looks for the caller first and for its parameters then. A
download of responses waits for its first row, so a query that fails at once is a plain failure; a
later one cuts the body short. An answer is `none` if it breaks down: the rows of a download cannot
be read in pages of the set size.
-/

set_option autoImplicit false

namespace ResponseExport.Http

open Export (Service System Item)
open Json (Value)

/-! ### Downloads -/

/-- The CSV file of rows that may end in an error. -/
def responsesFile (name : String) (items : List Item) : Reply :=
  let chunks := Csv.chunks (Csv.Encoder.new {} Survey.responseSchema) (Export.toRecords items)
  .attachment name (Csv.bytesOf chunks) ((Csv.failureOf? chunks).map ExportError.message)

/-- The reply to a download, given its rows: an error in place of the first row is a failure. -/
def responsesReply (s : Service) (survey : String) (items : List Item) :
    Except ServiceError Reply :=
  match items with
  | .error e :: _ => .error (.export e)
  | items => .ok (responsesFile (Export.FileName.report survey s.now) items)

/-- All responses to a survey of the caller. -/
def responses (s : Service) (caller : String) (q : Query) :
    Option (Service × Except ServiceError Reply) :=
  match q.requiredSurvey with
  | .error e => some (s, .error e)
  | .ok survey =>
    (s.rows? (.survey caller survey)).map fun (t, items) => (t, responsesReply s survey items)

/-- The head of a download: what follows its first row is never asked for. -/
def responsesHead (s : Service) (caller : String) (q : Query) :
    Option (Service × Except ServiceError Reply) :=
  match q.requiredSurvey with
  | .error e => some (s, .error e)
  | .ok survey =>
    (s.firstRow? (.survey caller survey)).map fun (t, item) =>
      (t, responsesReply s survey item.toList)

/-- The versions of a survey of the caller. -/
def forms (s : Service) (caller : String) (q : Query) : Except ServiceError Reply := do
  let survey ← q.requiredSurvey
  let forms ← (s.store.fetchForms caller survey).mapError .domain
  let body := Csv.render {} Survey.formSchema (forms.map Survey.Form.toRecord)
  return .attachment (Export.FileName.forms survey s.now) body none

/-! ### Lists -/

/-- One page of the responses to a survey of the caller. -/
def listing (s : Service) (caller : String) (q : Query) : Except ServiceError Reply := do
  let survey ← q.requiredSurvey
  let rows ← (Listing.page s.store (.survey caller survey) q.after q.pageSize).mapError .domain
  return .json 200 (Listing.toJson rows)

/-- Each respondent's first and last answer to the caller's surveys, or to one of them. -/
def spans (s : Service) (caller : String) (q : Query) : Except ServiceError Reply := do
  let spans ← (s.store.fetchSpans caller q.survey?).mapError .domain
  return .json 200 (.array (spans.map Survey.Span.toJson))

/-! ### Exports -/

/-- How far the caller's exports are, or those of one survey. -/
def status (s : Service) (caller : String) (q : Query) : Except ServiceError Reply := do
  if q.survey.isSome ∧ q.survey? = none then
    throw (.badRequest "survey query parameter is required")
  let jobs ← s.list caller q.survey
  return .json 200 (.array (jobs.map Export.Job.toJson))

/-- The id of an export in a path. -/
def exportId (id : String) : Except ServiceError String :=
  match Text.ofBytes? (Text.percentDecode (Text.bytes id)) with
  | some id => .ok id
  | none => .error (.badRequest "Invalid URL: Invalid UTF-8 in `export_id`")

/-- The file of a finished export of the caller. -/
def file (s : Service) (caller id : String) : Except ServiceError Reply := do
  let id ← exportId id
  let (name, target) ← s.openFile caller id
  match target.read with
  | .ok data => return .attachment name data none
  | .error e => return .attachment name [] (some e.message)

/-- The reply to a request for an export that is accepted. -/
def accepted (id : String) : Reply :=
  .json 201 (.object [("status", .string "success"), ("export_id", .string id)])

/-- Asks for an export under the id `fresh`. The survey is taken as it is, blanks and all. -/
def request (y : System) (fresh caller : String) (q : Query) :
    System × Except ServiceError Reply :=
  match q.survey?, q.survey with
  | some _, some survey =>
    match y.request ⟨fresh, caller, survey⟩ with
    | (y, .ok job) => (y, .ok (accepted job.id))
    | (y, .error e) => (y, .error e)
  | _, _ => (y, .error Query.noSurvey)

/-! ### Routes -/

/-- The caller and the parameters of a request. -/
def parameters (listing : Bool) (r : Request) : Except ServiceError (String × Query) := do
  let caller ← r.caller
  let q ← Query.read listing r.target
  return (caller, q)

/-- Answers a request for something that can be read; only the head of it may be wanted. -/
def read (s : Service) (head : Bool) (resource : Resource) (r : Request) :
    Option (Service × Except ServiceError Reply) :=
  match resource with
  | .health => some (s, .ok (.plain 200 "Health : Ok"))
  | .file id => some (s, r.caller.bind fun caller => file s caller id)
  | .listing => some (s, (parameters true r).bind fun (caller, q) => listing s caller q)
  | .forms => some (s, (parameters false r).bind fun (caller, q) => forms s caller q)
  | .spans => some (s, (parameters false r).bind fun (caller, q) => spans s caller q)
  | .status => some (s, (parameters false r).bind fun (caller, q) => status s caller q)
  | .responses =>
    match parameters false r with
    | .error e => some (s, .error e)
    | .ok (caller, q) => if head then responsesHead s caller q else responses s caller q

/-- Answers a request for an export. -/
def ask (y : System) (fresh : String) (r : Request) : System × Except ServiceError Reply :=
  match parameters false r with
  | .error e => (y, .error e)
  | .ok (caller, q) => request y fresh caller q

/-- The reply to a request, be it answered or not. -/
def reply : Except ServiceError Reply → Reply
  | .ok r => r
  | .error e => .ofError e

/-- Replies to a request. An export that is asked for has the id `fresh`. -/
def handle (y : System) (fresh : String) (r : Request) : Option (System × Reply) :=
  match Route.ofPath? r.target.path with
  | none => some (y, .plain 404 r.target.text)
  | some route =>
    match route, route.action r.method with
    | _, .refused => some (y, .notAllowed route.methods)
    | .request, _ =>
      let (y, answer) := ask y fresh r
      some (y, reply answer)
    | .resource resource, .answer =>
      (read y.service false resource r).map fun (service, answer) =>
        ({ y with service }, reply answer)
    | .resource resource, .head =>
      (read y.service true resource r).map fun (service, answer) =>
        ({ y with service }, (reply answer).withoutBody)

end ResponseExport.Http
