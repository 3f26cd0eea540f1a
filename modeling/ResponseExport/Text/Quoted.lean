import ResponseExport.Text.Printable

/-!
# `ResponseExport.Text.Quoted`: text as it appears in diagnostics

A quoted text stands between double quotes; quotes, backslashes and the common controls are
escaped by a backslash, every other hidden character is written by its code point.
-/

set_option autoImplicit false

namespace ResponseExport.Text

/-- The escaped form of one character. -/
def quotedChar (c : Char) : List Char :=
  match c with
  | '"' => ['\\', '"']
  | '\\' => ['\\', '\\']
  | '\n' => ['\\', 'n']
  | '\r' => ['\\', 'r']
  | '\t' => ['\\', 't']
  | '\x00' => ['\\', '0']
  | c =>
    if isHidden c then
      ['\\', 'u', '\x7b'] ++ Nat.toDigits 16 c.toNat ++ ['\x7d']
    else [c]

/-- A text between quotes. -/
def quoted (s : String) : String :=
  String.ofList ('"' :: (s.toList.flatMap quotedChar ++ ['"']))

/-- A list of texts between quotes, inside square brackets. -/
def quotedList (xs : List String) : String :=
  "[" ++ ", ".intercalate (xs.map quoted) ++ "]"

end ResponseExport.Text
