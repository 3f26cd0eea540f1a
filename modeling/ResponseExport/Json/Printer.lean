import ResponseExport.Json.Basic
import ResponseExport.Json.Literal
import ResponseExport.Decimal.Shortest

/-!
# `ResponseExport.Json.Printer`: compact JSON text

Values are written without blanks, members in the order in which the object holds them.
-/

set_option autoImplicit false

namespace ResponseExport.Json

/-- The text of a number. -/
def Number.text : Number → String
  | .integer n => toString n
  | .double bits => Decimal.text bits

mutual

/-- The characters of a value. -/
def Value.write : Value → List Char
  | .null => "null".toList
  | .boolean true => "true".toList
  | .boolean false => "false".toList
  | .number n => n.text.toList
  | .string s => Literal.write s
  | .array [] => ['[', ']']
  | .array (v :: vs) => '[' :: (v.write ++ writeItems vs)
  | .object [] => ['\x7b', '\x7d']
  | .object ((k, v) :: ms) => '\x7b' :: (Literal.write k ++ ':' :: (v.write ++ writeMembers ms))

/-- The characters of the elements after the first, and of the closing bracket. -/
def writeItems : List Value → List Char
  | [] => [']']
  | v :: vs => ',' :: (v.write ++ writeItems vs)

/-- The characters of the members after the first, and of the closing brace. -/
def writeMembers : List (String × Value) → List Char
  | [] => ['\x7d']
  | (k, v) :: ms => ',' :: (Literal.write k ++ ':' :: (v.write ++ writeMembers ms))

end

/-- The text of a value. -/
def Value.text (v : Value) : String := String.ofList v.write

end ResponseExport.Json
