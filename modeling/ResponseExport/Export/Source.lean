import ResponseExport.Csv.Writer
import ResponseExport.Export.RowStream
import ResponseExport.Store.Responses
import ResponseExport.Survey.Columns

/-!
# `ResponseExport.Export.Source`: where exported rows come from

Rows are read from the store, or from a script: answers written down beforehand and given out one
by one, whatever is asked.
-/

set_option autoImplicit false

namespace ResponseExport.Export

open Survey (Filter)

/-- Where rows come from. -/
inductive Source where
  /-- The table of responses. -/
  | table
  /-- Answers written down beforehand. -/
  | script (answers : List PageAnswer)

namespace Source

/-- The pages of the wanted responses. -/
def pages (source : Source) (store : Store) (f : Filter) : Pages :=
  match source with
  | .table => fun _ after limit => store.fetchPage f after limit
  | .script answers => scripted answers

/-- More questions than any walk asks: a page that is not the last has a row, or stands in the
script. -/
def walkSteps (source : Source) (store : Store) : Nat :=
  match source with
  | .table => store.tables.responses.length + 2
  | .script answers => answers.length + 2

/-- All that a walk delivers, if its channel can have the size of a page. -/
def walk? (source : Source) (store : Store) (f : Filter) (pageSize calls : Nat) : Option Walked :=
  if isPossible pageSize then
    some (walk (source.pages store f) (atLeastOne pageSize) (source.walkSteps store) calls none)
  else none

/-- More steps than the producer of a stream takes: three for a page, one for a row. -/
def streamSteps (source : Source) (store : Store) : Nat :=
  match source with
  | .table => 4 * store.tables.responses.length + 16
  | .script answers => answers.foldr (fun a n => (a.toOption.getD []).length + 4 + n) 16

/-- The first item of a stream that is then left alone, if its channel can have the size of a page,
and how many questions were asked in all. -/
def first? (source : Source) (store : Store) (f : Filter) (pageSize calls : Nat) :
    Option (Option Item × Nat) :=
  (RowStream.new? pageSize).map fun s =>
    let pages : Pages := fun i => source.pages store f (calls + i)
    let (item, asked) := s.first pages (source.streamSteps store)
    (item, calls + asked)

end Source

/-- Items as records, for a file. -/
def toRecords (items : List Item) : List (Except ExportError Csv.Record) :=
  items.map fun
    | .ok r => .ok r.toRecord
    | .error e => .error e

/-- A sink's fault, met by an export. -/
def ofSinkFault (f : Csv.SinkFault) : ExportError := .io f.message

end ResponseExport.Export
