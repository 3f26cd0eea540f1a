import ResponseExport.Json.Printer
import ResponseExport.Store.Responses
import ResponseExport.Survey.Token
import ResponseExport.Survey.Wire

/-!
# `ResponseExport.Listing`: responses page by page, for clients

A client lists responses by handing back the token of the last row that it has. A page has between
one and a thousand rows, twenty-five if the client does not say; every row carries the token that
resumes the listing right behind it.
-/

set_option autoImplicit false

namespace ResponseExport

/-- A row of a listing. -/
structure ListedResponse where
  response : Survey.Response
  /-- Resumes the listing behind this row. -/
  token : String
  deriving Repr, DecidableEq

namespace Listing

/-- The rows of a page if the client does not say. -/
def defaultSize : Nat := 25

/-- The most rows that a page can have. -/
def maxSize : Nat := 1000

/-- A response as a row of a listing. -/
def listed (r : Survey.Response) : ListedResponse := ⟨r, (Survey.Cursor.at r).token⟩

/-- The place where a page starts. No token and an empty one mean the beginning. -/
def start (after : Option String) : Except FieldError (Option Survey.Cursor) :=
  match after with
  | none => .ok none
  | some token => if token.isEmpty then .ok none else (Survey.Cursor.ofToken token).map some

/-- One page of a listing. The size is looked at before the token. -/
def page (store : Store) (f : Survey.Filter) (after : Option String) (size : Option Nat) :
    Except DomainError (List ListedResponse) :=
  let size := size.getD defaultSize
  if size = 0 ∨ maxSize < size then
    .error (.field (.range "pageSize" "1" (toString maxSize)))
  else
    match start after with
    | .error e => .error (.field e)
    | .ok cursor => (store.fetchPage f cursor size).map fun rows => rows.map listed

end Listing

/-- A row of a listing as a value; the token comes last. -/
def ListedResponse.toJson (r : ListedResponse) : Json.Value :=
  .object (r.response.members ++ [("token", .string r.token)])

/-- A page of a listing as a value. -/
def Listing.toJson (rows : List ListedResponse) : Json.Value :=
  .object [("responses", .array (rows.map ListedResponse.toJson))]

end ResponseExport
