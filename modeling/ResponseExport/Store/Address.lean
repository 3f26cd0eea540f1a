import ResponseExport.Store.FileUri
import ResponseExport.Text.Quoted

/-!
# `ResponseExport.Store.Address`: where a database is

An address is `sqlite:` or `sqlite://`, a path or `:memory:`, and optional parameters: how the file
is opened, whether it is held in memory, whether its cache is shared, whether it never changes, and
which file system is used below it. `Address.read` reads it, `Address.uri` is the name that the
engine is given, and `Address.mode` how it is asked to open the file.
-/

set_option autoImplicit false

namespace ResponseExport.Store

/-- Where a database is and how it is opened. -/
structure Address where
  /-- The name of its file. -/
  path : String
  inMemory : Bool := false
  readOnly : Bool := false
  sharedCache : Bool := false
  immutable : Bool := false
  /-- The file system below it, if one is named. -/
  vfs : Option String := none
  deriving Repr, DecidableEq

namespace Address

/-- What follows `start`, as often as the text begins with it. -/
def stripAll (start : List Char) (cs : List Char) : List Char :=
  if _h : start ≠ [] ∧ start.isPrefixOf cs = true then stripAll start (cs.drop start.length) else cs
termination_by cs.length
decreasing_by
  obtain ⟨hne, hp⟩ := _h
  have hle := (List.isPrefixOf_iff_prefix.mp hp).length_le
  have hpos : 0 < start.length := List.length_pos_iff.mpr hne
  simp only [List.length_drop]
  omega

/-- A value that a parameter does not know. -/
def unknownValue (value key : String) : EngineError :=
  .configuration s!"unknown value {Text.quoted value} for `{key}`"

/-- Applies one parameter. -/
def withParameter (a : Address) (key value : String) : Except EngineError Address :=
  match key with
  | "mode" =>
    match value with
    | "ro" => .ok { a with readOnly := true }
    | "rw" => .ok a
    | "rwc" => .ok a
    | "memory" => .ok { a with inMemory := true, sharedCache := true }
    | _ => .error (unknownValue value key)
  | "cache" =>
    match value with
    | "private" => .ok { a with sharedCache := false }
    | "shared" => .ok { a with sharedCache := true }
    | _ => .error (unknownValue value key)
  | "immutable" =>
    match value with
    | "true" => .ok { a with immutable := true }
    | "1" => .ok { a with immutable := true }
    | "false" => .ok { a with immutable := false }
    | "0" => .ok { a with immutable := false }
    | _ => .error (unknownValue value key)
  | "vfs" => .ok { a with vfs := some value }
  | _ => .error (.configuration s!"unknown query parameter `{key}` while parsing connection URL")

/-- Applies parameters from left to right; the first one that is not understood counts. -/
def withParameters (a : Address) : List (String × String) → Except EngineError Address
  | [] => .ok a
  | (key, value) :: rest =>
    match a.withParameter key value with
    | .ok a => a.withParameters rest
    | .error e => .error e

/-- The address without its parameters. -/
def ofDatabase (database : List Char) : Except EngineError Address :=
  if database = ":memory:".toList then
    .ok { path := ":memory:", inMemory := true, sharedCache := true }
  else
    let decoded := Text.percentDecode (Text.bytes (String.ofList database))
    match Text.ofBytes? decoded with
    | some path => .ok { path }
    | none =>
      .error (.configuration (((Text.firstBreak decoded).map Text.Break.message).getD ""))

/-- Reads an address. -/
def read (url : String) : Except EngineError Address :=
  let rest := stripAll "sqlite:".toList (stripAll "sqlite://".toList url.toList)
  match ofDatabase (rest.takeWhile (· != '?')) with
  | .error e => .error e
  | .ok a =>
    match rest.dropWhile (· != '?') with
    | [] => .ok a
    | _ :: parameters =>
      a.withParameters (Text.queryPairs (Text.bytes (String.ofList parameters)))

/-! ### The name of the file -/

/-- The part of a text before its first NUL character. -/
def untilNul (s : String) : String := String.ofList (s.toList.takeWhile (· != '\x00'))

/-- The options that the parameters put behind the name of the file. A space is written as a plus
sign, which stands for itself there. -/
def options (a : Address) : List (String × String) :=
  (if a.immutable then [("immutable", "true")] else []) ++
    match a.vfs with
    | some vfs => [("vfs", (untilNul vfs).map fun c => if c = ' ' then '+' else c)]
    | none => []

/-- The name that is handed to the engine. With options it is escaped; without, it has to stand
for itself. -/
def uri (a : Address) : Except EngineError FileUri :=
  if a.options ≠ [] then .ok ⟨untilNul a.path, a.options⟩
  else if a.path.toList.contains '\x00' then
    .error (.communication "filename passed to SQLite must not contain nul bytes")
  else FileUri.read a.path

/-- How the database is opened if the name of its file says nothing about that. -/
def mode (a : Address) : Mode := ⟨if a.readOnly then .read else .create, a.inMemory⟩

end Address

end ResponseExport.Store
