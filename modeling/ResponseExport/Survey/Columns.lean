import ResponseExport.Csv.Encoder
import ResponseExport.Survey.Answer
import ResponseExport.Survey.Response

/-!
# `ResponseExport.Survey.Columns`: responses and forms as rows of a file
-/

set_option autoImplicit false

namespace ResponseExport.Survey

/-- The columns of a file of responses. -/
def responseColumns : List String :=
  ["parent_surveyid", "parent_shortcode", "surveyid", "flowid", "userid", "question_ref",
    "question_idx", "question_text", "response", "timestamp", "metadata", "pageid",
    "translated_response"]

/-- The columns of a file of forms. -/
def formColumns : List String :=
  ["surveyid", "shortcode", "survey_name", "version", "survey_created", "metadata"]

/-- A text that may be absent. -/
def optionText (s : Option String) : String := s.getD ""

/-- A number that may be absent. -/
def optionNumber (n : Option Int64) : String := (n.map fun n => toString n.toInt).getD ""

/-- The row of a response. -/
def Response.toRecord (r : Response) : Csv.Record :=
  Csv.Record.ofList
    [("parent_surveyid", optionText r.parentSurvey),
      ("parent_shortcode", optionText r.parentShortcode),
      ("surveyid", r.survey),
      ("flowid", optionNumber r.flow),
      ("userid", r.respondent),
      ("question_ref", r.question),
      ("question_idx", optionNumber r.questionIndex),
      ("question_text", optionText r.questionText),
      ("response", Answer.text r.answer),
      ("timestamp", r.time),
      ("metadata", optionText r.metadata),
      ("pageid", optionText r.page),
      ("translated_response", Answer.text r.translation)]

/-- The row of a form. -/
def Form.toRecord (f : Form) : Csv.Record :=
  Csv.Record.ofList
    [("surveyid", f.survey),
      ("shortcode", f.shortcode),
      ("survey_name", f.name),
      ("version", toString f.version),
      ("survey_created", f.created),
      ("metadata", optionText f.metadata)]

/-- The columns of every file of responses. -/
def responseSchema : Csv.Schema := .fixed responseColumns

/-- The columns of every file of forms. -/
def formSchema : Csv.Schema := .fixed formColumns

end ResponseExport.Survey
