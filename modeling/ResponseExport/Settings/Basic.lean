import ResponseExport.Error.Service
import ResponseExport.Text.Blank
import ResponseExport.Text.Numeral

/-!
# `ResponseExport.Settings.Basic`: settings from the environment

Every setting has a default and may be given by a variable. Numbers are read without the blanks
around them and have to be positive; the first variable that cannot be read counts, and only if all
can be read the first that is zero.
-/

set_option autoImplicit false

namespace ResponseExport

/-- The settings of the service. -/
structure Settings where
  databaseUrl : String := "sqlite://survey_export.sqlite?mode=rwc"
  maxConnections : Nat := 5
  bindAddress : String := "0.0.0.0:3090"
  /-- The rows of a page, and of the channel between reading and writing. -/
  pageSize : Nat := 1000
  exportDirectory : String := "./exports"
  /-- What stands before an export's id in the link to its file. -/
  baseUrl : String := "/api/v1/exports"
  workers : Nat := 2
  deriving Repr, DecidableEq

namespace Settings

/-- A text without the slashes at its end. -/
def trimSlashes (s : String) : String :=
  String.ofList (s.toList.reverse.dropWhile (· == '/')).reverse

/-- The value of a variable as a number of at most `limit`, or a default if it is not set. -/
def number (lookup : String → Option String) (key : String) (default limit : Nat) :
    Except ServiceError Nat :=
  match lookup key with
  | none => .ok default
  | some raw =>
    match Text.readNumeral limit (Text.trim raw) with
    | .ok n => .ok n
    | .error e => .error (.configuration s!"{key} has invalid value '{raw}': {e.message}")

/-- A number that must not be zero. -/
def positive (key : String) (n : Nat) : Except ServiceError Unit :=
  if n = 0 then .error (.configuration s!"{key} must be greater than zero") else .ok ()

/-- The variables that give settings. -/
def names : List String :=
  ["DATABASE_URL", "DB_MAX_CONNECTIONS", "BIND_ADDR", "EXPORT_PAGE_SIZE", "EXPORT_DIR",
    "EXPORT_BASE_URL", "EXPORT_WORKERS"]

/-- The settings that the variables give. -/
def ofLookup (lookup : String → Option String) : Except ServiceError Settings := do
  let defaults : Settings := {}
  let maxConnections ← number lookup "DB_MAX_CONNECTIONS" defaults.maxConnections Text.max32
  let pageSize ← number lookup "EXPORT_PAGE_SIZE" defaults.pageSize Text.max64
  let workers ← number lookup "EXPORT_WORKERS" defaults.workers Text.max64
  positive "DB_MAX_CONNECTIONS" maxConnections
  positive "EXPORT_PAGE_SIZE" pageSize
  positive "EXPORT_WORKERS" workers
  return {
    databaseUrl := (lookup "DATABASE_URL").getD defaults.databaseUrl
    maxConnections
    bindAddress := (lookup "BIND_ADDR").getD defaults.bindAddress
    pageSize
    exportDirectory := (lookup "EXPORT_DIR").getD defaults.exportDirectory
    baseUrl := ((lookup "EXPORT_BASE_URL").map trimSlashes).getD defaults.baseUrl
    workers }

end Settings

end ResponseExport
