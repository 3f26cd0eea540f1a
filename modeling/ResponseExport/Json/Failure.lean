/-!
# `ResponseExport.Json.Failure`: what is wrong with a JSON text, and where

A failure knows its cause and how many bytes of the text were still unread when it was found; line
and column follow from that number and the text.
-/

set_option autoImplicit false

namespace ResponseExport.Json

/-- What stands in place of the value that was asked for. -/
inductive Found where
  | null
  | boolean (b : Bool)
  /-- An integer, with its digits. -/
  | integer (n : Int)
  /-- Any other number, by its shortest text. -/
  | floating (text : String)
  /-- A text, in quotes. -/
  | quoted (text : String)
  | sequence
  | map
  deriving Repr, DecidableEq

/-- The wording of what stands there. -/
def Found.message : Found → String
  | .null => "null"
  | .boolean b => s!"boolean `{b}`"
  | .integer n => s!"integer `{n}`"
  | .floating t => s!"floating point `{t}`"
  | .quoted t => s!"string {t}"
  | .sequence => "sequence"
  | .map => "map"

/-- What was asked for. -/
inductive Wanted where
  | string
  /-- An array of so many elements. -/
  | array (length : Nat)
  deriving Repr, DecidableEq

/-- The wording of what was asked for. -/
def Wanted.message : Wanted → String
  | .string => "a string"
  | .array n => s!"an array of length {n}"

/-- Why a text cannot be read. -/
inductive Reason where
  | endInList
  | endInString
  | endInValue
  | expectedCommaOrBracket
  | expectedIdent
  | expectedValue
  | invalidEscape
  | invalidNumber
  | numberOutOfRange
  | invalidUnicode
  | controlCharacter
  | loneSurrogate
  | trailingComma
  | trailingCharacters
  | unexpectedEndOfHexEscape
  /-- A value of another kind. -/
  | mistyped (found : Found) (wanted : Wanted)
  /-- Too few elements. -/
  | wrongLength (length : Nat) (wanted : Wanted)
  deriving Repr, DecidableEq

/-- The wording of a reason. -/
def Reason.message : Reason → String
  | .endInList => "EOF while parsing a list"
  | .endInString => "EOF while parsing a string"
  | .endInValue => "EOF while parsing a value"
  | .expectedCommaOrBracket => "expected `,` or `]`"
  | .expectedIdent => "expected ident"
  | .expectedValue => "expected value"
  | .invalidEscape => "invalid escape"
  | .invalidNumber => "invalid number"
  | .numberOutOfRange => "number out of range"
  | .invalidUnicode => "invalid unicode code point"
  | .controlCharacter =>
    "control character (\\u0000-\\u001F) found while parsing a string"
  | .loneSurrogate => "lone leading surrogate in hex escape"
  | .trailingComma => "trailing comma"
  | .trailingCharacters => "trailing characters"
  | .unexpectedEndOfHexEscape => "unexpected end of hex escape"
  | .mistyped found wanted => s!"invalid type: {found.message}, expected {wanted.message}"
  | .wrongLength n wanted => s!"invalid length {n}, expected {wanted.message}"

/-- A failure to read a text. -/
structure Failure where
  /-- The cause. -/
  reason : Reason
  /-- How many bytes of the text follow the place where it was found. -/
  left : Nat
  deriving Repr, DecidableEq

/-- A failure found after everything before `rest` was read. -/
def Failure.before (reason : Reason) (rest : List UInt8) : Failure := ⟨reason, rest.length⟩

/-- A failure found at the first byte of `rest`, which counts as read. -/
def Failure.at (reason : Reason) (rest : List UInt8) : Failure := ⟨reason, rest.length - 1⟩

/-- The wording of a failure, with its line and column in the text. -/
def Failure.message (f : Failure) (text : List UInt8) : String :=
  let done := text.take (text.length - f.left)
  let line := 1 + done.count 10
  let column := (done.reverse.takeWhile (· != 10)).length
  s!"{f.reason.message} at line {line} column {column}"

end ResponseExport.Json
