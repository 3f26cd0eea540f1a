import ResponseExport.Error.Field
import ResponseExport.Json.Strings
import ResponseExport.Survey.Response
import ResponseExport.Text.Base64
import ResponseExport.Text.Blank

/-!
# `ResponseExport.Survey.Token`: cursors that clients carry

A listing hands out cursors as opaque tokens: the four texts as a JSON array, in URL-safe base64. A
token that comes back may have blanks around it and may spell the array in another way; anything
else is refused with the first fault found.
-/

set_option autoImplicit false

namespace ResponseExport.Survey

namespace Cursor

/-- The texts of a cursor in order. -/
def texts (c : Cursor) : List String := [c.respondent, c.time, c.question, c.survey]

/-- The array that a token holds. -/
def document (c : Cursor) : List Char :=
  '[' :: ([','].intercalate (c.texts.map Json.Literal.write) ++ [']'])

/-- The token of a cursor. -/
def token (c : Cursor) : String := Text.Base64.encode (Text.bytes (String.ofList c.document))

/-- The cursor of four texts. -/
def ofTexts (ts : List String) : Cursor :=
  ⟨ts.getD 0 "", ts.getD 1 "", ts.getD 2 "", ts.getD 3 ""⟩

/-- The fault of a token. -/
def tokenError (reason : String) : FieldError := .format "after" s!"not a valid token: {reason}"

/-- Reads a token. -/
def ofToken (token : String) : Except FieldError Cursor :=
  match Text.Base64.decode (Text.bytes (Text.trim token)) with
  | .error fault => .error (tokenError fault.message)
  | .ok bytes =>
    match Json.Strings.read 4 bytes with
    | .error failure => .error (tokenError (failure.message bytes))
    | .ok texts => .ok (ofTexts texts)

end Cursor

end ResponseExport.Survey
