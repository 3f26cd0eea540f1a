import ResponseExport.Error.Service
import ResponseExport.Http.Target
import ResponseExport.Json.Printer
import ResponseExport.Text.Blank

/-!
# `ResponseExport.Http.Message`: requests and replies
-/

set_option autoImplicit false

namespace ResponseExport.Http

/-- A request. -/
structure Request where
  method : String
  target : Target
  /-- Names and values in order. -/
  headers : List (String × String)
  deriving Repr, DecidableEq

namespace Request

/-- The first value of a header; the case of its name does not count. -/
def header? (r : Request) (name : String) : Option String :=
  (r.headers.find? fun h => h.1.toLower == name.toLower).map (·.2)

/-- The header that names the caller. -/
def callerHeader : String := "x-user-email"

/-- May a caller's address hold the character? -/
def isVisible (c : Char) : Bool := (0x20 ≤ c.toNat && c.toNat < 0x7F) || c == '\t'

/-- The address of the caller. -/
def caller (r : Request) : Except ServiceError String :=
  let address := match r.header? callerHeader with
    | some value => if value.toList.all isVisible then Text.trim value else ""
    | none => ""
  if address.isEmpty then .error (.badRequest "No user, no responses!") else .ok address

end Request

/-- A reply. -/
structure Reply where
  status : Nat
  contentType : Option String := none
  disposition : Option String := none
  /-- The methods that are allowed instead. -/
  allow : Option String := none
  body : List UInt8 := []
  /-- What cut the body short. -/
  fault : Option String := none
  deriving Repr, DecidableEq

namespace Reply

/-- A reply of plain text. -/
def plain (status : Nat) (s : String) : Reply :=
  { status, contentType := some "text/plain; charset=utf-8", body := Text.bytes s }

/-- A reply of JSON. -/
def json (status : Nat) (v : Json.Value) : Reply :=
  { status, contentType := some "application/json", body := Text.bytes v.text }

/-- A CSV file to be saved. -/
def attachment (name : String) (body : List UInt8) (fault : Option String) : Reply :=
  { status := 200
    contentType := some "text/csv; charset=utf-8"
    disposition := some ("attachment; filename=\"" ++ name ++ "\"")
    body, fault }

/-- The reply to a request that fails. -/
def ofError (e : ServiceError) : Reply :=
  match e.shown? with
  | some s => plain e.status s
  | none => { status := e.status }

/-- The reply to a method that a route does not have. -/
def notAllowed (allow : String) : Reply := { status := 405, allow := some allow }

/-- A reply without its body. -/
def withoutBody (r : Reply) : Reply := { r with body := [], fault := none }

end Reply

end ResponseExport.Http
