import ResponseExport.Json.Printer
import ResponseExport.Json.Record
import ResponseExport.Survey.Response

/-!
# `ResponseExport.Survey.Wire`: responses, spans and forms in JSON

The members stand in order of declaration; absent texts and numbers are `null`.
-/

set_option autoImplicit false

namespace ResponseExport.Survey

open ResponseExport.Json (Value Doc)

/-- A text that may be absent. -/
def textOrNull : Option String → Value := Value.ofOption .string

/-- A number that may be absent. -/
def numberOrNull : Option Int64 → Value := Value.ofOption fun n => .ofInt n.toInt

/-- The members of a response. -/
def Response.members (r : Response) : List (String × Value) :=
  [("parent_surveyid", textOrNull r.parentSurvey),
    ("parent_shortcode", textOrNull r.parentShortcode),
    ("surveyid", .string r.survey),
    ("flowid", numberOrNull r.flow),
    ("userid", .string r.respondent),
    ("question_ref", .string r.question),
    ("question_idx", numberOrNull r.questionIndex),
    ("question_text", textOrNull r.questionText),
    ("response", textOrNull r.answer),
    ("timestamp", .string r.time),
    ("metadata", textOrNull r.metadata),
    ("pageid", textOrNull r.page),
    ("translated_response", textOrNull r.translation)]

/-- A response as a value. -/
def Response.toJson (r : Response) : Value := .object r.members

/-- The names of the members of a response. -/
def Response.fieldNames : List String :=
  ["parent_surveyid", "parent_shortcode", "surveyid", "flowid", "userid", "question_ref",
    "question_idx", "question_text", "response", "timestamp", "metadata", "pageid",
    "translated_response"]

/-- Reads a response. -/
def Response.ofDoc? (d : Doc) : Option Response := do
  match ← d.fields? Response.fieldNames with
  | [parentSurvey, parentShortcode, survey, flow, respondent, question, index, questionText,
      answer, time, metadata, page, translation] =>
    return {
      parentSurvey := ← Doc.optional? Doc.text? parentSurvey
      parentShortcode := ← Doc.optional? Doc.text? parentShortcode
      survey := ← Doc.text? survey
      flow := ← Doc.optional? Doc.int64? flow
      respondent := ← Doc.text? respondent
      question := ← Doc.text? question
      questionIndex := ← Doc.optional? Doc.int64? index
      questionText := ← Doc.optional? Doc.text? questionText
      answer := ← Doc.optional? Doc.text? answer
      time := ← Doc.text? time
      metadata := ← Doc.optional? Doc.text? metadata
      page := ← Doc.optional? Doc.text? page
      translation := ← Doc.optional? Doc.text? translation }
  | _ => none

/-- A span as a value. -/
def Span.toJson (s : Span) : Value :=
  .object
    [("userid", .string s.respondent),
      ("first_surveyid", .string s.firstSurvey),
      ("first_timestamp", .string s.firstTime),
      ("first_response", textOrNull s.firstAnswer),
      ("last_surveyid", .string s.lastSurvey),
      ("last_timestamp", .string s.lastTime),
      ("last_response", textOrNull s.lastAnswer)]

/-- The names of the members of a span. -/
def Span.fieldNames : List String :=
  ["userid", "first_surveyid", "first_timestamp", "first_response", "last_surveyid",
    "last_timestamp", "last_response"]

/-- Reads a span. -/
def Span.ofDoc? (d : Doc) : Option Span := do
  match ← d.fields? Span.fieldNames with
  | [respondent, firstSurvey, firstTime, firstAnswer, lastSurvey, lastTime, lastAnswer] =>
    return {
      respondent := ← Doc.text? respondent
      firstSurvey := ← Doc.text? firstSurvey
      firstTime := ← Doc.text? firstTime
      firstAnswer := ← Doc.optional? Doc.text? firstAnswer
      lastSurvey := ← Doc.text? lastSurvey
      lastTime := ← Doc.text? lastTime
      lastAnswer := ← Doc.optional? Doc.text? lastAnswer }
  | _ => none

/-- A form as a value. -/
def Form.toJson (f : Form) : Value :=
  .object
    [("surveyid", .string f.survey),
      ("shortcode", .string f.shortcode),
      ("survey_name", .string f.name),
      ("version", .ofInt f.version),
      ("survey_created", .string f.created),
      ("metadata", textOrNull f.metadata)]

/-- The names of the members of a form. -/
def Form.fieldNames : List String :=
  ["surveyid", "shortcode", "survey_name", "version", "survey_created", "metadata"]

/-- Reads a form. The version has to fit 64 bits. -/
def Form.ofDoc? (d : Doc) : Option Form := do
  match ← d.fields? Form.fieldNames with
  | [survey, shortcode, name, version, created, metadata] =>
    return {
      survey := ← Doc.text? survey
      shortcode := ← Doc.text? shortcode
      name := ← Doc.text? name
      version := ← Doc.integer? Doc.minInt64 Doc.maxInt64 version
      created := ← Doc.text? created
      metadata := ← Doc.optional? Doc.text? metadata }
  | _ => none

end ResponseExport.Survey
