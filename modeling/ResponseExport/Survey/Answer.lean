import ResponseExport.Json.Doc
import ResponseExport.Json.Printer

/-!
# `ResponseExport.Survey.Answer`: answers in a cell

A structured answer is flattened into one text: the texts of its leaves, in order, with `; ` between
them. Lists are taken apart however deep they nest, an empty list counts as one empty leaf, and an
object stays JSON. Any other answer is shown as it is stored.
-/

set_option autoImplicit false

namespace ResponseExport.Survey.Answer

/-- What stands between two leaves. -/
def separator : String := "; "

/-- Texts with the separator between them. -/
def join (leaves : List String) : String := separator.intercalate leaves

/-- The text of a value that is no list. -/
def leafText : Json.Value → String
  | .null => ""
  | .boolean b => if b then "true" else "false"
  | .number n => n.text
  | .string s => s
  | v => v.text

mutual

/-- A value as one text: a list is the texts of its elements, joined. -/
def cell : Json.Value → String
  | .array items => join (cells items)
  | v => leafText v

/-- The texts of elements. -/
def cells : List Json.Value → List String
  | [] => []
  | v :: vs => cell v :: cells vs

end

/-- A stored answer as one text. -/
def text (stored : Option String) : String :=
  match stored with
  | none => ""
  | some raw =>
    match Json.Value.ofText? raw with
    | some (.array items) => cell (.array items)
    | some (.object members) => cell (.object members)
    | _ => raw

end ResponseExport.Survey.Answer
