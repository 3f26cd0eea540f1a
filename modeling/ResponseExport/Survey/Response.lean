import ResponseExport.Text.Bytes

/-!
# `ResponseExport.Survey.Response`: collected answers

A response is one answer of one respondent to one question of one version of a survey. These four
things identify it; put in another order, respondent first and time second, they are its *cursor*,
the place that it has in every listing and export.
-/

set_option autoImplicit false

namespace ResponseExport.Survey

/-- One answer. -/
structure Response where
  parentSurvey : Option String := none
  parentShortcode : Option String := none
  /-- The version of the survey that was answered. -/
  survey : String
  flow : Option Int64 := none
  respondent : String
  question : String
  questionIndex : Option Int64 := none
  questionText : Option String := none
  /-- The answer as stored: JSON if it is structured, plain text if not. -/
  answer : Option String := none
  /-- When the answer came in, as stored. -/
  time : String
  metadata : Option String := none
  page : Option String := none
  translation : Option String := none
  deriving Repr, DecidableEq

/-- The place of a response in a listing. -/
structure Cursor where
  respondent : String := ""
  time : String := ""
  question : String := ""
  survey : String := ""
  deriving Repr, DecidableEq

/-- The cursor at a response; what comes next lies behind it. -/
def Cursor.at (r : Response) : Cursor := ⟨r.respondent, r.time, r.question, r.survey⟩

/-- The four texts of a cursor, as bytes, in the order in which they are compared. -/
def Cursor.key (c : Cursor) : List (List UInt8) :=
  [Text.bytes c.respondent, Text.bytes c.time, Text.bytes c.question, Text.bytes c.survey]

/-- The order of cursors: text by text, and texts by their bytes. -/
def Cursor.order (a b : Cursor) : Ordering := compare a.key b.key

/-- Does a cursor lie strictly behind another? -/
def Cursor.isBehind (c other : Cursor) : Bool := c.order other == .gt

/-- Which responses are wanted. -/
inductive Filter where
  /-- All that are stored. -/
  | all
  /-- The responses to every version of the survey of this name and owner. -/
  | survey (owner name : String)
  deriving Repr, DecidableEq

/-- A respondent's first and last answer. -/
structure Span where
  respondent : String
  firstSurvey : String
  firstTime : String
  firstAnswer : Option String
  lastSurvey : String
  lastTime : String
  lastAnswer : Option String
  deriving Repr, DecidableEq

/-- One version of a survey. -/
structure Form where
  survey : String
  shortcode : String
  name : String
  /-- Counts the versions under one shortcode, oldest first. -/
  version : Int
  created : String
  metadata : Option String
  deriving Repr, DecidableEq

end ResponseExport.Survey
