/-!
# `ResponseExport.Json.Basic`: JSON values

A JSON value as a respondent's structured answer holds it. Numbers are integers of 64 bits where
they fit and binary64 numbers otherwise. Members of an object stand in a list: sorted by key in a
value that was read (`Json.Doc`), in order of declaration in one that is to be written.
-/

set_option autoImplicit false

namespace ResponseExport.Json

/-- A JSON number. -/
inductive Number where
  /-- An integer, between `-2^63` and `2^64 - 1` if it was read. -/
  | integer (n : Int)
  /-- A finite binary64 number, given by its bits. -/
  | double (bits : UInt64)
  deriving Repr, DecidableEq

/-- A JSON value. -/
inductive Value where
  | null
  | boolean (b : Bool)
  | number (n : Number)
  | string (s : String)
  | array (items : List Value)
  | object (members : List (String × Value))
  deriving Repr, Inhabited

/-- An integer as a value. -/
def Value.ofInt (n : Int) : Value := .number (.integer n)

/-- A count as a value. -/
def Value.ofNat (n : Nat) : Value := .ofInt n

/-- A text that may be absent, which is written as `null`. -/
def Value.ofOption {α : Type} (f : α → Value) : Option α → Value
  | some a => f a
  | none => .null

end ResponseExport.Json
