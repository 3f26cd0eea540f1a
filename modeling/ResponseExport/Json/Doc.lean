import ResponseExport.Json.Literal
import ResponseExport.Json.Numeral

/-!
# `ResponseExport.Json.Doc`: JSON text as it stands

A `Doc` is a JSON text read but not yet understood: numerals are digits, members stand in the order
of the text and may repeat, and a string whose escapes name no text is kept as `none`. What a part
of it has to be is decided by the reader who wants that part: `Doc.value?` wants everything, a
record (`Json.Record`) only its own fields.

An object whose first key is `embeddedKey` stands for the value of another JSON text: its only
member is a string that holds that text. Containers are counted anew in there.

The readers count down a number that bounds their steps; twice the length of the text is always
enough.
-/

set_option autoImplicit false

namespace ResponseExport.Json

/-- A JSON text as it stands. -/
inductive Doc where
  | null
  | boolean (b : Bool)
  | numeral (n : Numeral)
  /-- A string; `none` if it is well formed but names no text. -/
  | literal (s : Option String)
  | array (items : List Doc)
  | object (members : List (Option String × Doc))
  deriving Repr, Inhabited

/-- Blanks between the parts of a JSON text. -/
def isGap (b : UInt8) : Bool := b == 32 || b == 9 || b == 10 || b == 13

/-- What follows the blanks. -/
def skipGaps (bs : List UInt8) : List UInt8 := bs.dropWhile isGap

/-- What follows `word`, if the bytes start with it. -/
def follow? : List UInt8 → List UInt8 → Option (List UInt8)
  | [], bs => some bs
  | w :: word, b :: bs => if w = b then follow? word bs else none
  | _ :: _, [] => none

/-- Reads what follows an opening quote; `none` is a string that names no text. -/
def readLiteral? (bs : List UInt8) : Option (Option String × List UInt8) :=
  match Literal.read bs with
  | .ok (s, rest) => some (some s, rest)
  | .error _ => (Literal.skip? bs).map fun rest => (none, rest)

mutual

/-- Reads a value, and what follows it. -/
def readDoc : Nat → List UInt8 → Option (Doc × List UInt8)
  | 0, _ => none
  | n + 1, bs =>
    match skipGaps bs with
    | [] => none
    | b :: rest =>
      if b = 110 then (follow? [117, 108, 108] rest).map (Doc.null, ·)
      else if b = 116 then (follow? [114, 117, 101] rest).map (Doc.boolean true, ·)
      else if b = 102 then (follow? [97, 108, 115, 101] rest).map (Doc.boolean false, ·)
      else if b = 34 then (readLiteral? rest).map fun (s, rest) => (Doc.literal s, rest)
      else if b = 91 then
        match skipGaps rest with
        | 93 :: rest => some (.array [], rest)
        | _ => (readItems n rest).map fun (items, rest) => (Doc.array items, rest)
      else if b = 123 then
        match skipGaps rest with
        | 125 :: rest => some (.object [], rest)
        | _ => (readMembers n rest).map fun (ms, rest) => (Doc.object ms, rest)
      else
        match Numeral.read (b :: rest) with
        | .ok (m, rest) => some (.numeral m, rest)
        | .error _ => none

/-- Reads elements up to the closing bracket. -/
def readItems : Nat → List UInt8 → Option (List Doc × List UInt8)
  | 0, _ => none
  | n + 1, bs =>
    match readDoc n bs with
    | none => none
    | some (v, rest) =>
      match skipGaps rest with
      | 44 :: rest => (readItems n rest).map fun (vs, rest) => (v :: vs, rest)
      | 93 :: rest => some ([v], rest)
      | _ => none

/-- Reads members up to the closing brace. -/
def readMembers : Nat → List UInt8 → Option (List (Option String × Doc) × List UInt8)
  | 0, _ => none
  | n + 1, bs =>
    match skipGaps bs with
    | 34 :: rest =>
      match readLiteral? rest with
      | none => none
      | some (k, rest) =>
        match skipGaps rest with
        | 58 :: rest =>
          match readDoc n rest with
          | none => none
          | some (v, rest) =>
            match skipGaps rest with
            | 44 :: rest => (readMembers n rest).map fun (ms, rest) => ((k, v) :: ms, rest)
            | 125 :: rest => some ([(k, v)], rest)
            | _ => none
        | _ => none
    | _ => none

end

/-- Reads a JSON text that holds one value and nothing else. -/
def Doc.ofBytes? (bs : List UInt8) : Option Doc :=
  match readDoc (2 * bs.length + 2) bs with
  | some (d, rest) => if (skipGaps rest).isEmpty then some d else none
  | none => none

/-- Reads a JSON text that holds one value and nothing else. -/
def Doc.ofText? (s : String) : Option Doc := Doc.ofBytes? (Text.bytes s)

/-! ### Values -/

/-- Puts a member into an object sorted by key, in place of an earlier one with its key. -/
def putMember (k : String) (v : Value) : List (String × Value) → List (String × Value)
  | [] => [(k, v)]
  | (k', v') :: ms =>
    match Text.order k k' with
    | .lt => (k, v) :: (k', v') :: ms
    | .eq => (k, v) :: ms
    | .gt => (k', v') :: putMember k v ms

/-- How many containers may stand inside one another. -/
def maxDepth : Nat := 127

/-- The key that announces a JSON text inside a string. -/
def embeddedKey : String := "$serde_json::private::RawValue"

/-- The text that the members of an object hold in place of a value. -/
inductive Embedded where
  /-- The first key announces none. -/
  | absent
  /-- The text of the only member. -/
  | text (s : String)
  /-- The first key announces a text, but the members are not one string. -/
  | broken
  deriving Repr, DecidableEq

/-- Looks at the first key of an object. -/
def Embedded.of : List (Option String × Doc) → Embedded
  | (some k, d) :: ms =>
    if k = embeddedKey then
      match d, ms with
      | .literal (some s), [] => .text s
      | _, _ => .broken
    else .absent
  | _ => .absent

mutual

/-- The value of a text, if its strings are texts, its numbers are in range and no more than
`depth` containers stand inside one another; `inner?` reads embedded texts. -/
def Doc.value? (inner? : String → Option Value) (depth : Nat) : Doc → Option Value
  | .null => some .null
  | .boolean b => some (.boolean b)
  | .numeral n => n.number?.map .number
  | .literal s => s.map .string
  | .array items =>
    match depth with
    | 0 => none
    | d + 1 => (itemValues? inner? d items).map .array
  | .object members =>
    match depth with
    | 0 => none
    | d + 1 =>
      match Embedded.of members with
      | .text s => inner? s
      | .broken => none
      | .absent => (memberValues? inner? d members []).map .object

/-- The values of elements. -/
def itemValues? (inner? : String → Option Value) (depth : Nat) : List Doc → Option (List Value)
  | [] => some []
  | d :: ds =>
    match d.value? inner? depth with
    | some v => (itemValues? inner? depth ds).map (v :: ·)
    | none => none

/-- The members put into an object one after the other. -/
def memberValues? (inner? : String → Option Value) (depth : Nat) :
    List (Option String × Doc) → List (String × Value) → Option (List (String × Value))
  | [], done => some done
  | (none, _) :: _, _ => none
  | (some k, d) :: ms, done =>
    match d.value? inner? depth with
    | some v => memberValues? inner? depth ms (putMember k v done)
    | none => none

end

/-- Reads a JSON value in which texts are embedded at most `levels` deep. -/
def Value.ofNested? : (levels : Nat) → String → Option Value
  | 0, _ => none
  | n + 1, s => (Doc.ofText? s).bind (Doc.value? (Value.ofNested? n) maxDepth)

/-- Reads a JSON value. An embedded text is shorter than the text around it, so there are no more
levels than characters. -/
def Value.ofText? (s : String) : Option Value := Value.ofNested? (s.length + 1) s

end ResponseExport.Json
