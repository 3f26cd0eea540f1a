import ResponseExport.Error.Domain
import ResponseExport.Store.Tables

/-!
# `ResponseExport.Store.Responses`: questions about responses

Responses are picked by what they are joined with: the survey that a response answers, and the user
who owns it. They are listed by cursor, page after page: a page starts strictly behind a cursor and
holds up to a given number of rows. A respondent's first and last answer are the least and the
greatest of the answers in scope, whatever was inserted first.
-/

set_option autoImplicit false

namespace ResponseExport.Store

open Survey (Response Cursor Filter Span)

namespace Tables

/-- Surveys joined with the users who own them: a row for each survey and each of its owners. -/
def ownedSurveys (t : Tables) : List (SurveyRow × User) :=
  t.surveys.flatMap fun s => (t.users.filter fun u => u.id == s.owner).map fun u => (s, u)

/-- Responses joined with the surveys that they answer, and these with their owners. -/
def ownedResponses (t : Tables) : List (Response × SurveyRow × User) :=
  let owned := t.ownedSurveys
  t.responses.flatMap fun r => (owned.filter fun p => p.1.id == r.survey).map fun p => (r, p)

/-- Is a survey one that is asked for by this name, if there is one? -/
def isNamed (name : Option String) (s : SurveyRow) : Bool :=
  match name with
  | some n => s.name == n
  | none => true

/-- The responses to the surveys of this owner and, if a name is given, of this name. -/
def inScope (t : Tables) (owner : String) (name : Option String) : List Response :=
  (t.ownedResponses.filter fun (_, s, u) => u.email == owner && isNamed name s).map (·.1)

/-- The wanted responses. -/
def wanted (t : Tables) (f : Filter) : List Response :=
  match f with
  | .all => t.responses
  | .survey owner name => t.inScope owner (some name)

/-- Does a response come no later than another in every listing? -/
def isBefore (a b : Response) : Bool := (Cursor.at a).order (Cursor.at b) != .gt

/-- The wanted responses in order. -/
def listing (t : Tables) (f : Filter) : List Response :=
  (t.wanted f).mergeSort isBefore

/-- Is a response behind the place where a page starts? -/
def isAfter (after : Option Cursor) (r : Response) : Bool :=
  match after with
  | some c => (Cursor.at r).isBehind c
  | none => true

/-- From this limit on, `2^63`, a query has none: it does not fit a signed number of 64 bits. -/
def noLimit : Nat := 9223372036854775808

/-- The first `limit` rows. -/
def limited {α : Type} (limit : Nat) (rows : List α) : List α :=
  if limit < noLimit then rows.take limit else rows

/-- One page of the wanted responses. -/
def page (t : Tables) (f : Filter) (after : Option Cursor) (limit : Nat) : List Response :=
  limited limit ((t.listing f).filter (isAfter after))

/-! ### Spans -/

/-- The least row of a non-empty list. -/
def earliest (r : Response) (rs : List Response) : Response :=
  rs.foldl (fun a b => if isBefore a b then a else b) r

/-- The greatest row of a non-empty list. -/
def latest (r : Response) (rs : List Response) : Response :=
  rs.foldl (fun a b => if isBefore b a then a else b) r

/-- The span of one respondent's rows. -/
def spanOf (rows : List Response) : Option Span :=
  match rows with
  | [] => none
  | r :: rs =>
    let first := earliest r rs
    let last := latest r rs
    some ⟨r.respondent, first.survey, first.time, first.answer, last.survey, last.time,
      last.answer⟩

/-- The respondents of rows, each once, in order. -/
def respondents (rows : List Response) : List String :=
  ((rows.map (·.respondent)).eraseDups).mergeSort fun a b => Text.order a b != .gt

/-- Each respondent's first and last answer to the surveys in scope. -/
def spans (t : Tables) (owner : String) (name : Option String) : List Span :=
  let rows := t.inScope owner name
  (respondents rows).filterMap fun u => spanOf (rows.filter fun r => r.respondent == u)

end Tables

/-- The fault of a query on a closed store. -/
def queryClosed (what : String) : DomainError :=
  .store (.query (what ++ ": " ++ EngineError.poolClosed.message))

end ResponseExport.Store

namespace ResponseExport.Store

/-- One page of the wanted responses. A page of no rows asks nothing of the store. -/
def fetchPage (s : Store) (f : Survey.Filter) (after : Option Survey.Cursor) (limit : Nat) :
    Except DomainError (List Survey.Response) :=
  if limit = 0 then .ok []
  else if s.isOpen then .ok (s.tables.page f after limit)
  else .error (queryClosed "Failed to fetch responses")

/-- Each respondent's first and last answer to the surveys in scope. -/
def fetchSpans (s : Store) (owner : String) (name : Option String) :
    Except DomainError (List Survey.Span) :=
  if s.isOpen then .ok (s.tables.spans owner name)
  else .error (queryClosed "Failed to fetch first and last responses")

end ResponseExport.Store
