import ResponseExport.Time.Instant

/-!
# `ResponseExport.Export.FileName`: names of files

The name of a file is built from the name of a survey, a time and, for a stored file, the id of the
export. Texts from outside are reduced to ASCII letters, digits, `-`, `_` and `.`, so a name is one
component of a path and can stand between quotes in a header.
-/

set_option autoImplicit false

namespace ResponseExport.Export.FileName

/-- Is a character kept in a file name? -/
def isKept (c : Char) : Bool := c.isAlphanum || c == '-' || c == '_' || c == '.'

/-- A text with an underscore for every character that is not kept. -/
def sanitize (s : String) : String :=
  String.ofList (s.toList.map fun c => if isKept c then c else '_')

/-- The name under which responses are downloaded. -/
def report (survey : String) (t : Time.Instant) : String :=
  "report_" ++ sanitize survey ++ "_" ++ t.millisText ++ ".csv"

/-- The name under which forms are downloaded. -/
def forms (survey : String) (t : Time.Instant) : String :=
  sanitize survey ++ "_" ++ t.millisText ++ ".csv"

/-- The name under which an export is stored. The id keeps two exports of one instant apart. -/
def stored (survey id : String) (t : Time.Instant) : String :=
  "report_" ++ sanitize survey ++ "_" ++ t.compactText ++ "_" ++ sanitize id ++ ".csv"

end ResponseExport.Export.FileName
