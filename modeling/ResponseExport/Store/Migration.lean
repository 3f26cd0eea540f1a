import ResponseExport.Error.Store
import ResponseExport.Text.Bytes

/-!
# `ResponseExport.Store.Migration`: bringing a schema up to date

A schema is changed by migrations, which are applied in order and recorded by name. Those behind
the last recorded one are applied together: all or none. Names of tables, indexes and columns do
not distinguish upper from lower case.
-/

set_option autoImplicit false

namespace ResponseExport.Store

/-- What a database file is made of, as far as migrations go. -/
structure Catalog where
  /-- The tables with their columns. -/
  tables : List (String × List String)
  /-- The indexes. -/
  indexes : List String
  /-- The migrations recorded in the table of migrations, in order. -/
  recorded : List String
  deriving Repr, DecidableEq

/-- One step of a migration; what is already there is left alone. -/
inductive SchemaStep where
  | table (name : String) (columns : List String)
  | index (name table : String) (columns : List String)
  deriving Repr, DecidableEq

/-- Do two names mean the same? -/
def sameName (a b : String) : Bool := a.toLower == b.toLower

namespace Catalog

/-- The columns of a table. -/
def columns? (c : Catalog) (name : String) : Option (List String) :=
  (c.tables.find? fun t => sameName t.1 name).map (·.2)

/-- Is there an index of this name? -/
def hasIndex (c : Catalog) (name : String) : Bool := c.indexes.any (sameName name)

/-- The first of some columns that a table lacks. -/
def missingColumn? (present wanted : List String) : Option String :=
  wanted.find? fun w => !present.any (sameName w)

/-- Takes one step. -/
def step (c : Catalog) : SchemaStep → Except EngineError Catalog
  | .table name columns =>
    if (c.columns? name).isSome then .ok c
    else if c.hasIndex name then .error (.refused 1 s!"there is already an index named {name}")
    else .ok { c with tables := c.tables ++ [(name, columns)] }
  | .index name table columns =>
    match c.columns? table with
    | none => .error (.refused 1 s!"no such table: main.{table}")
    | some present =>
      if (c.columns? name).isSome then
        .error (.refused 1 s!"there is already a table named {name}")
      else if c.hasIndex name then .ok c
      else
        match missingColumn? present columns with
        | some column => .error (.refused 1 s!"no such column: {column}")
        | none => .ok { c with indexes := c.indexes ++ [name] }

/-- Takes steps one after the other. -/
def steps (c : Catalog) : List SchemaStep → Except EngineError Catalog
  | [] => .ok c
  | s :: rest =>
    match c.step s with
    | .ok c => c.steps rest
    | .error e => .error e

end Catalog

/-! ### The migrations of the service -/

/-- A named group of steps. -/
structure Migration where
  name : String
  steps : List SchemaStep
  deriving Repr, DecidableEq

/-- Owners, surveys and the answers collected for them. -/
def basicMigration : Migration :=
  ⟨"20250101000000_basic.sql",
    [.table "users" ["id", "email"],
      .table "surveys" ["id", "userid", "survey_name", "shortcode", "created", "metadata"],
      .index "idx_surveys_owner_name" "surveys" ["userid", "survey_name"],
      .table "responses"
        ["parent_surveyid", "parent_shortcode", "surveyid", "flowid", "userid", "question_ref",
          "question_idx", "question_text", "response", "timestamp", "metadata", "pageid",
          "translated_response"],
      .index "idx_responses_keyset" "responses"
        ["userid", "timestamp", "question_ref", "surveyid"]]⟩

/-- One row per requested export. -/
def jobsMigration : Migration :=
  ⟨"20250102000000_export_status.sql",
    [.table "export_status"
        ["export_id", "survey_id", "user_id", "updated", "status", "export_link", "file_name"],
      .index "idx_export_status_owner" "export_status" ["user_id", "survey_id", "updated"]]⟩

/-- All migrations in order. -/
def migrations : List Migration := [basicMigration, jobsMigration]

/-- The migrations behind the last recorded one: all if none is recorded, none if the last recorded
one is unknown. -/
def pending (last : Option String) : List Migration :=
  match last with
  | none => migrations
  | some name => (migrations.dropWhile fun m => m.name != name).drop 1

namespace Catalog

/-- The table in which migrations are recorded. -/
def recordTable : String := "migrations"

/-- The recorded migrations, if the table of migrations has a column for their names. -/
def recorded? (c : Catalog) : Option (List String) :=
  match c.columns? recordTable with
  | some columns => if columns.any (sameName "name") then some c.recorded else none
  | none => none

/-- The fault of reading which migration was the last. -/
def lastError (c : Catalog) : Option EngineError :=
  match c.columns? recordTable with
  | some columns =>
    (missingColumn? columns ["name", "id"]).map fun n => .refused 1 s!"no such column: {n}"
  | none => none

/-- Applies migrations one after the other and records them. -/
def applyAll (c : Catalog) : List Migration → Except StoreError Catalog
  | [] => .ok c
  | m :: rest =>
    match c.steps m.steps with
    | .error e =>
      .error (.migration s!"Failed to apply migration {m.name}: {e.message}")
    | .ok c => applyAll { c with recorded := c.recorded ++ [m.name] } rest

/-- Brings a schema up to date. If that fails, nothing is left of it but the table of migrations. -/
def migrate (c : Catalog) : Catalog × Except StoreError Unit :=
  match c.step (.table recordTable ["id", "name", "applied_at"]) with
  | .error e => (c, .error (.migration s!"Failed to create migrations table: {e.message}"))
  | .ok c =>
    match c.lastError with
    | some e => (c, .error (.migration s!"Failed to get last migration: {e.message}"))
    | none =>
      match c.applyAll (pending c.recorded.getLast?) with
      | .ok c => (c, .ok ())
      | .error e => (c, .error e)

/-- The names of the tables in order. -/
def tableNames (c : Catalog) : List String :=
  (c.tables.map (·.1)).mergeSort fun a b => Text.order a b != .gt

/-- The names of the indexes in order. -/
def indexNames (c : Catalog) : List String :=
  c.indexes.mergeSort fun a b => Text.order a b != .gt

end Catalog

end ResponseExport.Store
