/-!
# `ResponseExport.Http.Target`: what a request is aimed at

A target is a path with an optional query behind a question mark; a scheme and an authority may
stand in front. What follows a `#` is for the client alone and is cut off.
-/

set_option autoImplicit false

namespace ResponseExport.Http

/-- What a request is aimed at. -/
structure Target where
  /-- What stands before the path: a scheme and an authority, or nothing. -/
  origin : String
  path : String
  query : Option String
  deriving Repr, DecidableEq

namespace Target

/-- Schemes are written in lower case if they are those of the web. -/
def schemeText (scheme : String) : String :=
  let lower := scheme.toLower
  if lower = "http" ∨ lower = "https" then lower else scheme

/-- A path and an optional query. -/
def ofPath (origin : String) (cs : List Char) : Target :=
  let path := cs.takeWhile (· != '?')
  let query := match cs.dropWhile (· != '?') with
    | [] => none
    | _ :: query => some (String.ofList query)
  ⟨origin, String.ofList path, query⟩

/-- May the character stand in a scheme? -/
def isScheme (c : Char) : Bool :=
  c.isAlphanum || c == '+' || c == '-' || c == '.' || c == '~'

/-- Does the character end an authority? -/
def endsAuthority (c : Char) : Bool := c == '/' || c == '?'

/-- A target that does not start with its path. Behind a scheme, the path is a slash at least; an
authority alone has none. -/
def ofOrigin (cs : List Char) : Target :=
  match cs.dropWhile isScheme with
  | ':' :: '/' :: '/' :: rest =>
    let scheme := schemeText (String.ofList (cs.takeWhile isScheme))
    let authority := String.ofList (rest.takeWhile (!endsAuthority ·))
    let t := ofPath (scheme ++ "://" ++ authority) (rest.dropWhile (!endsAuthority ·))
    if t.path.isEmpty then { t with path := "/" } else t
  | _ => ⟨String.ofList cs, "", none⟩

/-- Reads a target. -/
def ofText (s : String) : Target :=
  match s.toList.takeWhile (· != '#') with
  | ['*'] => ⟨"", "*", none⟩
  | '/' :: cs => ofPath "" ('/' :: cs)
  | cs => ofOrigin cs

/-- The text of a target. -/
def text (t : Target) : String :=
  t.origin ++ t.path ++
    match t.query with
    | some query => "?" ++ query
    | none => ""

end Target

end ResponseExport.Http
