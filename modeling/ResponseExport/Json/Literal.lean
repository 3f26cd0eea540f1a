import ResponseExport.Text.Bytes
import ResponseExport.Json.Failure

/-!
# `ResponseExport.Json.Literal`: strings in JSON text

A string is written between quotes; only the quote, the backslash and the characters below U+0020
are escaped. Reading knows every escape of the format, joins the two halves of a surrogate pair
and refuses a half that stands alone.

* `Literal.write` is what the service writes;
* `Literal.read` reads what follows an opening quote, byte by byte;
* `Literal.skip?` passes over a string whose text is not wanted.
-/

set_option autoImplicit false

namespace ResponseExport.Json.Literal

/-- A digit of base sixteen, lower case. -/
def hexDigit (n : Nat) : Char := if n < 10 then Char.ofNat (48 + n) else Char.ofNat (87 + n)

/-- How a character is written between the quotes. -/
def escape (c : Char) : List Char :=
  if c = '"' then ['\\', '"']
  else if c = '\\' then ['\\', '\\']
  else if c = '\x08' then ['\\', 'b']
  else if c = '\t' then ['\\', 't']
  else if c = '\n' then ['\\', 'n']
  else if c = '\x0c' then ['\\', 'f']
  else if c = '\r' then ['\\', 'r']
  else if c.toNat < 32 then
    ['\\', 'u', '0', '0', hexDigit (c.toNat / 16), hexDigit (c.toNat % 16)]
  else [c]

/-- A text as a JSON string. -/
def write (s : String) : List Char := '"' :: (s.toList.flatMap escape ++ ['"'])

/-- The value of a digit of base sixteen, either case, given by its byte. -/
def hexValue? (b : UInt8) : Option Nat :=
  let n := b.toNat
  if 48 ≤ n ∧ n ≤ 57 then some (n - 48)
  else if 97 ≤ n ∧ n ≤ 102 then some (n - 87)
  else if 65 ≤ n ∧ n ≤ 70 then some (n - 55)
  else none

/-- The value of four digits of base sixteen. -/
def hexUnit? (a b c d : UInt8) : Option Nat := do
  let a ← hexValue? a
  let b ← hexValue? b
  let c ← hexValue? c
  let d ← hexValue? d
  return ((a * 16 + b) * 16 + c) * 16 + d

/-- The byte that a one-letter escape stands for. -/
def shortEscape? (b : UInt8) : Option UInt8 :=
  if b = 34 then some 34
  else if b = 92 then some 92
  else if b = 47 then some 47
  else if b = 98 then some 8
  else if b = 102 then some 12
  else if b = 110 then some 10
  else if b = 114 then some 13
  else if b = 116 then some 9
  else none

/-- The first half of a surrogate pair. -/
def isHighSurrogate (n : Nat) : Bool := 0xD800 ≤ n && n ≤ 0xDBFF

/-- The second half of a surrogate pair. -/
def isLowSurrogate (n : Nat) : Bool := 0xDC00 ≤ n && n ≤ 0xDFFF

/-- The character of a surrogate pair. -/
def pair (high low : Nat) : Char :=
  Char.ofNat ((high - 0xD800) * 1024 + (low - 0xDC00) + 0x10000)

/-- The bytes of one character. -/
def charBytes (c : Char) : List UInt8 := Text.bytes (String.singleton c)

/-- Prepends the bytes of a character to a reading that succeeds. -/
def after (bs : List UInt8) (r : Except Failure (List UInt8 × List UInt8)) :
    Except Failure (List UInt8 × List UInt8) :=
  r.map fun (content, rest) => (bs ++ content, rest)

/-- Reads what follows an opening quote: the bytes of the text, and what follows the closing
quote. -/
def readBytes : List UInt8 → Except Failure (List UInt8 × List UInt8)
  | [] => .error (.before .endInString [])
  | b :: rest =>
    if b = 34 then .ok ([], rest)
    else if b = 92 then
      match rest with
      | [] => .error (.before .endInString [])
      | 117 :: h1 :: h2 :: h3 :: h4 :: rest =>
        match hexUnit? h1 h2 h3 h4 with
        | none => .error (.before .invalidEscape rest)
        | some high =>
          if isLowSurrogate high then .error (.before .loneSurrogate rest)
          else if isHighSurrogate high then
            match rest with
            | 92 :: 117 :: l1 :: l2 :: l3 :: l4 :: rest =>
              match hexUnit? l1 l2 l3 l4 with
              | none => .error (.before .invalidEscape rest)
              | some low =>
                if isLowSurrogate low then after (charBytes (pair high low)) (readBytes rest)
                else .error (.before .loneSurrogate rest)
            | 92 :: 117 :: _ => .error (.before .endInString [])
            | 92 :: _ :: rest => .error (.before .unexpectedEndOfHexEscape rest)
            | [92] => .error (.before .endInString [])
            | _ :: rest => .error (.before .unexpectedEndOfHexEscape rest)
            | [] => .error (.before .endInString [])
          else after (charBytes (Char.ofNat high)) (readBytes rest)
      | 117 :: _ => .error (.before .endInString [])
      | e :: rest =>
        match shortEscape? e with
        | some c => after [c] (readBytes rest)
        | none => .error (.before .invalidEscape rest)
    else if b < 32 then .error (.before .controlCharacter rest)
    else after [b] (readBytes rest)

/-- How many bytes of a text stand from its first byte on that is no part of a UTF-8 character. -/
def brokenLength (content : List UInt8) : Nat :=
  content.length - ((Text.firstBreak content).map (·.offset)).getD content.length

/-- Reads what follows an opening quote: the text, and what follows the closing quote. A text
that is not UTF-8 is refused as far before the end of the string as the text goes on from its first
wrong byte; that is the place of this byte if no escape follows it. -/
def read (bs : List UInt8) : Except Failure (String × List UInt8) :=
  match readBytes bs with
  | .error f => .error f
  | .ok (content, rest) =>
    match Text.ofBytes? content with
    | some s => .ok (s, rest)
    | none => .error ⟨.invalidUnicode, rest.length + brokenLength content⟩

/-- Passes over what follows an opening quote: the escapes have to be well formed, but they may
stand for any surrogates, and the bytes need not be UTF-8. -/
def skip? : List UInt8 → Option (List UInt8)
  | [] => none
  | b :: rest =>
    if b = 34 then some rest
    else if b = 92 then
      match rest with
      | [] => none
      | 117 :: h1 :: h2 :: h3 :: h4 :: rest =>
        if (hexUnit? h1 h2 h3 h4).isSome then skip? rest else none
      | e :: rest => if (shortEscape? e).isSome then skip? rest else none
    else if b < 32 then none
    else skip? rest

end ResponseExport.Json.Literal
