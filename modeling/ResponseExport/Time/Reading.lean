import ResponseExport.Text.Blank
import ResponseExport.Time.Instant

/-!
# `ResponseExport.Time.Reading`: instants from texts

Two grammars are read.

* `Instant.read` takes the strict form: `2024-03-01T10:00:00.25+01:00`, with fixed widths, `T`,
  `t` or a space in the middle, any number of digits of a fraction (nine count), and `Z`, `z` or an
  offset below a day at the end.
* `Instant.readRelaxed` also takes fewer digits, signed years, blanks between the parts, and `UTC`.

The first fault from the left counts. The strict form asks first whether the text is long enough,
and whether the date exists as soon as it is read; the relaxed form asks that last.
-/

set_option autoImplicit false

namespace ResponseExport.Time

/-- Why a text is no instant. -/
inductive ReadError where
  /-- The text ends too early. -/
  | tooShort
  /-- Another character was expected. -/
  | invalid
  /-- A part is too large, or the date does not exist. -/
  | outOfRange
  /-- Something follows the instant. -/
  | tooLong
  /-- Universal time leaves the supported years. -/
  | impossible
  deriving Repr, DecidableEq

/-- The wording of a reading fault. -/
def ReadError.message : ReadError → String
  | .tooShort => "premature end of input"
  | .invalid => "input contains invalid characters"
  | .outOfRange => "input is out of range"
  | .tooLong => "trailing input"
  | .impossible => "no possible date and time matching input"

/-! ### Parts -/

/-- The number of UTF-8 bytes of characters. -/
def byteLength (cs : List Char) : Nat := cs.foldr (fun c n => c.utf8Size + n) 0

/-- Is the character an ASCII digit? -/
def isDigit (c : Char) : Bool := '0' ≤ c && c ≤ '9'

/-- The value of digits. -/
def digitsValue (cs : List Char) : Nat := cs.foldl (fun acc c => acc * 10 + (c.toNat - 48)) 0

/-- Numbers below this one, `2^63`, can be read. -/
def numberLimit : Nat := 9223372036854775808

/-- Reads a number of at least `low` digits and, if `high` is given, at most `high`. -/
def readNumber (low : Nat) (high : Option Nat) (cs : List Char) :
    Except ReadError (Nat × List Char) :=
  if byteLength cs < low then .error .tooShort
  else
    let run := match high with
      | some n => (cs.take n).takeWhile isDigit
      | none => cs.takeWhile isDigit
    if run.length < low then .error .invalid
    else if numberLimit ≤ digitsValue run then .error .outOfRange
    else .ok (digitsValue run, cs.drop run.length)

/-- Reads a number that has to lie between two bounds. -/
def readWithin (low high : Nat) (r : Except ReadError (Nat × List Char)) :
    Except ReadError (Nat × List Char) :=
  match r with
  | .ok (n, rest) => if low ≤ n ∧ n ≤ high then .ok (n, rest) else .error .outOfRange
  | .error e => .error e

/-- Reads one given character. -/
def readChar (c : Char) : List Char → Except ReadError (List Char)
  | [] => .error .tooShort
  | x :: rest => if x = c then .ok rest else .error .invalid

/-- Reads what stands between date and time. -/
def readSeparator : List Char → Except ReadError (List Char)
  | [] => .error .tooShort
  | x :: rest => if x = 't' ∨ x = 'T' ∨ x = ' ' then .ok rest else .error .invalid

/-- Reads the fraction of a second, in nanoseconds, if there is one. -/
def readFraction (cs : List Char) : Except ReadError (Nat × List Char) :=
  match cs with
  | '.' :: rest =>
    match readNumber 1 (some 9) rest with
    | .error e => .error e
    | .ok (n, after) =>
      .ok (n * Nat.pow 10 (9 - (rest.length - after.length)), after.dropWhile isDigit)
  | _ => .ok (0, cs)

/-- Reads two digits of an offset. -/
def readPair (cs : List Char) : Except ReadError (Nat × List Char) :=
  if byteLength cs < 2 then .error .tooShort
  else
    match cs with
    | a :: b :: rest =>
      if isDigit a ∧ isDigit b then .ok (digitsValue [a, b], rest) else .error .invalid
    | _ => .error .invalid

/-- Reads the hours and minutes of an offset; `colon` reads what stands between them. -/
def readOffsetDigits (colon : List Char → Except ReadError (List Char)) (cs : List Char) :
    Except ReadError (Int × List Char) := do
  let (hours, cs) ← readPair cs
  let cs ← colon cs
  let (minutes, cs) ← readPair cs
  if 60 ≤ minutes then .error .outOfRange
  return (((hours * 60 + minutes) * 60 : Nat), cs)

/-- Reads how many seconds a clock is ahead of universal time. -/
def readOffset (colon : List Char → Except ReadError (List Char)) (cs : List Char) :
    Except ReadError (Int × List Char) :=
  match cs with
  | [] => .error .tooShort
  | c :: rest =>
    if c = 'Z' ∨ c = 'z' then .ok (0, rest)
    else if c = '+' then readOffsetDigits colon rest
    else if c = '-' ∨ c = '\u2212' then
      (readOffsetDigits colon rest).map fun (s, rest) => (-s, rest)
    else .error .invalid

/-- The instant of a date, a time and an offset, if there is one. -/
def instantOf (year : Int) (month day hour minute second nanos : Nat) (offset : Int) :
    Except ReadError Instant :=
  match Date.make? year month day with
  | none => .error .outOfRange
  | some date =>
    if 86400 ≤ offset.natAbs then .error .outOfRange
    else
      let t := Instant.ofClock ⟨date, hour, minute, second, nanos⟩ offset
      if t.isSupported then .ok t else .error .impossible

/-! ### The strict form -/

/-- The length of a date and a time without a fraction, in bytes. -/
def fixedLength : Nat := 19

/-- Reads exactly `n` digits. -/
def readFixed (n : Nat) (cs : List Char) : Except ReadError (Nat × List Char) :=
  let run := cs.take n
  if run.length = n ∧ run.all isDigit then .ok (digitsValue run, cs.drop n) else .error .invalid

/-- Reads a date, which has to exist. -/
def readDate (cs : List Char) : Except ReadError (Date × List Char) := do
  let (year, cs) ← readFixed 4 cs
  let cs ← readChar '-' cs
  let (month, cs) ← readFixed 2 cs
  let cs ← readChar '-' cs
  let (day, cs) ← readFixed 2 cs
  match Date.make? year month day with
  | some date => return (date, cs)
  | none => .error .outOfRange

/-- Reads a time of the day; a minute may have a leap second. -/
def readClock (date : Date) (cs : List Char) : Except ReadError (Clock × List Char) := do
  let (hour, cs) ← readFixed 2 cs
  let cs ← readChar ':' cs
  let (minute, cs) ← readFixed 2 cs
  let cs ← readChar ':' cs
  let (second, cs) ← readFixed 2 cs
  let (nanos, cs) ← readFraction cs
  if hour ≤ 23 ∧ minute ≤ 59 ∧ second ≤ 60 then return (⟨date, hour, minute, second, nanos⟩, cs)
  else .error .outOfRange

/-- Reads an instant in the strict form. -/
def Instant.read (s : String) : Except ReadError Instant := do
  if byteLength s.toList < fixedLength then .error .tooShort
  let (date, cs) ← readDate s.toList
  let cs ← readSeparator cs
  let (clock, cs) ← readClock date cs
  let (offset, cs) ← readOffset (readChar ':') cs
  if cs ≠ [] then .error .tooLong
  if 86400 ≤ offset.natAbs then .error .outOfRange
  return Instant.ofClock clock offset

/-! ### The relaxed form -/

/-- Passes over blanks. -/
def skipBlanks (cs : List Char) : List Char := Text.dropLeadingBlanks cs

/-- Passes over blanks and colons. -/
def skipColons (cs : List Char) : Except ReadError (List Char) :=
  .ok (cs.dropWhile fun c => c == ':' || Text.isBlank c)

/-- Reads a year: up to four digits, or a sign and any number of digits. -/
def readYear (cs : List Char) : Except ReadError (Int × List Char) :=
  match skipBlanks cs with
  | '-' :: rest => (readNumber 1 none rest).map fun (n, rest) => (-(n : Int), rest)
  | '+' :: rest => (readNumber 1 none rest).map fun (n, rest) => ((n : Int), rest)
  | cs => (readNumber 1 (some 4) cs).map fun (n, rest) => ((n : Int), rest)

/-- Reads a number of one or two digits behind blanks. -/
def readLoose (low high : Nat) (cs : List Char) : Except ReadError (Nat × List Char) :=
  readWithin low high (readNumber 1 (some 2) (skipBlanks cs))

/-- Reads `UTC`, in any case, or an offset. -/
def readZone (cs : List Char) : Except ReadError (Int × List Char) :=
  match cs with
  | a :: b :: c :: rest =>
    if a.toUpper = 'U' ∧ b.toUpper = 'T' ∧ c.toUpper = 'C' then .ok (0, rest)
    else readOffset skipColons cs
  | _ => readOffset skipColons cs

/-- Reads an instant in the relaxed form. -/
def Instant.readRelaxed (s : String) : Except ReadError Instant := do
  let (year, cs) ← readYear s.toList
  let cs ← readChar '-' (skipBlanks cs)
  let (month, cs) ← readLoose 1 12 cs
  let cs ← readChar '-' (skipBlanks cs)
  let (day, cs) ← readLoose 1 31 cs
  let cs ← readSeparator cs
  let (hour, cs) ← readLoose 0 23 cs
  let cs ← readChar ':' (skipBlanks cs)
  let (minute, cs) ← readLoose 0 59 cs
  let cs ← readChar ':' (skipBlanks cs)
  let (second, cs) ← readLoose 0 60 cs
  let (nanos, cs) ← readFraction cs
  let (offset, cs) ← readZone (skipBlanks cs)
  if skipBlanks cs ≠ [] then .error .tooLong
  instantOf year month day hour minute second nanos offset

end ResponseExport.Time
