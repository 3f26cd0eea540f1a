import ResponseExport.Json.Doc
import ResponseExport.Decimal.Shortest
import ResponseExport.Text.Quoted

/-!
# `ResponseExport.Json.Strings`: an array of texts, with diagnostics

A listing token holds an array of a fixed number of texts. `Strings.read` reads such an array and,
when there is none, says what is wrong and where: the first fault from the left counts.
-/

set_option autoImplicit false

namespace ResponseExport.Json.Strings

/-- Reads the rest of a word whose first letter is read. -/
def readWord (word : List UInt8) (bs : List UInt8) : Except Failure (List UInt8) :=
  match word, bs with
  | [], bs => .ok bs
  | _ :: _, [] => .error (.before .endInValue [])
  | w :: word, b :: bs => if w = b then readWord word bs else .error (.before .expectedIdent bs)

/-- The failure of a value of another kind than `wanted`. Containers are not looked into. -/
def otherKind (wanted : Wanted) (bs : List UInt8) : Failure :=
  let mistyped (found : Found) (rest : List UInt8) : Failure :=
    .before (.mistyped found wanted) rest
  match bs with
  | [] => .at .endInValue []
  | b :: rest =>
    if b = 110 then
      match readWord [117, 108, 108] rest with
      | .ok rest => mistyped .null rest
      | .error f => f
    else if b = 116 then
      match readWord [114, 117, 101] rest with
      | .ok rest => mistyped (.boolean true) rest
      | .error f => f
    else if b = 102 then
      match readWord [97, 108, 115, 101] rest with
      | .ok rest => mistyped (.boolean false) rest
      | .error f => f
    else if b = 34 then
      match Literal.read rest with
      | .ok (s, rest) => mistyped (.quoted (Text.quoted s)) rest
      | .error f => f
    else if b = 91 then mistyped .sequence bs
    else if b = 123 then mistyped .map bs
    else if b = 45 ∨ Numeral.isDigit b then
      match Numeral.read bs with
      | .error f => f
      | .ok (n, rest) =>
        match n.number rest with
        | .ok (.integer i) => mistyped (.integer i) rest
        | .ok (.double bits) => mistyped (.floating (Decimal.text bits)) rest
        | .error f => f
    else .at .expectedValue bs

/-- Reads a text. -/
def readText (bs : List UInt8) : Except Failure (String × List UInt8) :=
  match skipGaps bs with
  | 34 :: rest => Literal.read rest
  | bs => .error (otherKind .string bs)

/-- Goes to the next element, the first one if `first`; `none` if the array ends here. -/
def toNext (first : Bool) (bs : List UInt8) : Except Failure (Option (List UInt8)) :=
  match skipGaps bs with
  | [] => .error (.at .endInList [])
  | 93 :: _ => .ok none
  | b :: rest =>
    if first then .ok (some (b :: rest))
    else if b = 44 then
      match skipGaps rest with
      | [] => .error (.at .endInValue [])
      | 93 :: rest => .error (.at .trailingComma (93 :: rest))
      | rest => .ok (some rest)
    else .error (.at .expectedCommaOrBracket (b :: rest))

/-- Reads `more` elements behind the `done` that are read. -/
def readTexts (total : Nat) : Nat → List UInt8 → Except Failure (List String × List UInt8)
  | 0, bs => .ok ([], bs)
  | more + 1, bs =>
    match toNext (more + 1 == total) bs with
    | .error f => .error f
    | .ok none =>
      .error (.before (.wrongLength (total - (more + 1)) (.array total)) ((skipGaps bs).drop 1))
    | .ok (some bs) =>
      match readText bs with
      | .error f => .error f
      | .ok (s, bs) => (readTexts total more bs).map fun (ss, bs) => (s :: ss, bs)

/-- Reads the closing bracket. -/
def readEnd (bs : List UInt8) : Except Failure (List UInt8) :=
  match skipGaps bs with
  | [] => .error (.at .endInList [])
  | 93 :: rest => .ok rest
  | 44 :: rest =>
    match skipGaps rest with
    | 93 :: rest => .error (.at .trailingComma (93 :: rest))
    | rest => .error (.at .trailingCharacters rest)
  | rest => .error (.at .trailingCharacters rest)

/-- Reads a JSON text that holds an array of `total` texts and nothing else. -/
def read (total : Nat) (bs : List UInt8) : Except Failure (List String) :=
  match skipGaps bs with
  | [] => .error (.at .endInValue [])
  | 91 :: rest =>
    match readTexts total total rest with
    | .error f => .error f
    | .ok (ss, rest) =>
      match readEnd rest with
      | .error f => .error f
      | .ok rest =>
        match skipGaps rest with
        | [] => .ok ss
        | rest => .error (.at .trailingCharacters rest)
  | bs => .error (otherKind (.array total) bs)

end ResponseExport.Json.Strings
