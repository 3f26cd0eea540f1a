import ResponseExport.Json.Record
import ResponseExport.Store.Tables
import ResponseExport.Survey.Wire

/-!
# `ResponseExport.Store.Snapshot`: tables written down as JSON

A snapshot lists users, surveys and responses, each a part that may be left out. They are taken in
in that order, row by row, until one is not taken in; the rows before it stay.
-/

set_option autoImplicit false

namespace ResponseExport.Store

open Json (Doc)

/-- Why a row of a snapshot is not taken in. -/
inductive RowFault where
  /-- A rule of its table refuses it. -/
  | refused (r : Refusal)
  /-- It has not the form of a row. -/
  | unreadable
  deriving Repr, DecidableEq

namespace Tables

/-- Takes in rows one after the other, up to the first one that is not taken in. -/
def addRows (add : Tables → Doc → Except RowFault Tables) :
    List Doc → Tables → Tables × Except RowFault Unit
  | [], t => (t, .ok ())
  | d :: ds, t =>
    match add t d with
    | .ok t => addRows add ds t
    | .error e => (t, .error e)

/-- Takes in a user: an array of id and address. -/
def addUserDoc (t : Tables) (d : Doc) : Except RowFault Tables :=
  match d with
  | .array [id, email] =>
    (t.addUser (Doc.text? (some id)) (Doc.text? (some email))).mapError .refused
  | _ => .error .unreadable

/-- Takes in a version of a survey. -/
def addSurveyDoc (t : Tables) (d : Doc) : Except RowFault Tables :=
  match d.fields? ["id", "userid", "survey_name", "shortcode", "created", "metadata"] with
  | some [id, owner, name, shortcode, created, metadata] =>
    (t.addSurvey (Doc.text? id) (Doc.text? owner) (Doc.text? name) (Doc.text? shortcode)
      (Doc.text? created) (Doc.text? metadata)).mapError .refused
  | _ => .error .unreadable

/-- Takes in a response. -/
def addResponseDoc (t : Tables) (d : Doc) : Except RowFault Tables :=
  match Survey.Response.ofDoc? d with
  | some r => (t.addResponse r).mapError .refused
  | none => .error .unreadable

/-- The rows of a part of a snapshot. -/
def rowsOf (name : String) (d : Doc) : List Doc :=
  match d with
  | .object members =>
    match Doc.member? name members with
    | some (.array rows) => rows
    | _ => []
  | _ => []

/-- Takes in a snapshot, up to the first row that is not taken in. -/
def addSnapshot (t : Tables) (d : Doc) : Tables × Except RowFault Unit :=
  match addRows addUserDoc (rowsOf "users" d) t with
  | (t, .error e) => (t, .error e)
  | (t, .ok ()) =>
    match addRows addSurveyDoc (rowsOf "surveys" d) t with
    | (t, .error e) => (t, .error e)
    | (t, .ok ()) => addRows addResponseDoc (rowsOf "responses" d) t

end Tables

end ResponseExport.Store
