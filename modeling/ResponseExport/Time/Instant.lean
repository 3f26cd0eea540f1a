import ResponseExport.Time.Calendar

/-!
# `ResponseExport.Time.Instant`: instants and their texts

An instant counts seconds from the start of 1970 and the nanoseconds within the second. A count of
nanoseconds from `10^9` on lies in a leap second, which is shown as second 60.

The text with three digits (`Instant.millisText`) has one width for the years 0 to 9999, so there
its order by bytes is the order in time.
-/

set_option autoImplicit false

namespace ResponseExport.Time

/-- A moment in time. -/
structure Instant where
  /-- Seconds from 1970-01-01T00:00:00Z. -/
  seconds : Int
  /-- Nanoseconds within the second, below `2 * 10^9`. -/
  nanos : Nat
  deriving Repr, DecidableEq

/-- The days from 0001-01-01 to 1970-01-01. -/
def epochDay : Int := 719162

/-- The seconds of a day. -/
def daySeconds : Int := 86400

/-- The nanoseconds of a second. -/
def secondNanos : Nat := 1000000000

/-- The nanoseconds of a millisecond. -/
def milliNanos : Nat := 1000000

/-- The nanoseconds of a microsecond. -/
def microNanos : Nat := 1000

/-- A date and the time of day. -/
structure Clock where
  date : Date
  hour : Nat
  minute : Nat
  /-- 0 to 60. -/
  second : Nat
  /-- Nanoseconds, below `10^9`. -/
  nanos : Nat
  deriving Repr, DecidableEq

/-- What a clock in universal time shows at an instant. -/
def Instant.clock (t : Instant) : Clock :=
  let inDay := (t.seconds % daySeconds).toNat
  let leap := if secondNanos ≤ t.nanos then 1 else 0
  { date := Date.ofDays (t.seconds / daySeconds + epochDay)
    hour := inDay / 3600
    minute := inDay / 60 % 60
    second := inDay % 60 + leap
    nanos := t.nanos - leap * secondNanos }

/-- Digits of a number, filled up with zeros in front to at least `width`. -/
def padded (width n : Nat) : List Char :=
  let ds := Nat.toDigits 10 n
  List.replicate (width - ds.length) '0' ++ ds

/-- A year: four digits from 0 to 9999, else a sign and at least four digits. -/
def yearText (y : Int) : List Char :=
  if 0 ≤ y ∧ y ≤ 9999 then padded 4 y.toNat
  else (if y < 0 then '-' else '+') :: padded 4 y.natAbs

/-- Date and time to the second. -/
def Clock.text (c : Clock) : List Char :=
  yearText c.date.year ++ '-' :: padded 2 c.date.month ++ '-' :: padded 2 c.date.day ++
    'T' :: padded 2 c.hour ++ ':' :: padded 2 c.minute ++ ':' :: padded 2 c.second

/-- An instant to the millisecond, which is cut and not rounded. -/
def Instant.millisText (t : Instant) : String :=
  let c := t.clock
  String.ofList (c.text ++ '.' :: padded 3 (c.nanos / milliNanos) ++ ['Z'])

/-- The fraction of a second in no, three, six or nine digits, whichever are enough. -/
def fractionText (nanos : Nat) : List Char :=
  if nanos = 0 then []
  else if nanos % milliNanos = 0 then '.' :: padded 3 (nanos / milliNanos)
  else if nanos % microNanos = 0 then '.' :: padded 6 (nanos / microNanos)
  else '.' :: padded 9 nanos

/-- An instant with as many digits as it needs. -/
def Instant.text (t : Instant) : String :=
  let c := t.clock
  String.ofList (c.text ++ fractionText c.nanos ++ ['Z'])

/-- An instant to the millisecond without colons, as it appears in the names of stored files. -/
def Instant.compactText (t : Instant) : String :=
  let c := t.clock
  String.ofList (yearText c.date.year ++ padded 2 c.date.month ++ padded 2 c.date.day ++
    'T' :: padded 2 c.hour ++ padded 2 c.minute ++ padded 2 c.second ++
    '.' :: padded 3 (c.nanos / milliNanos) ++ ['Z'])

/-- The instant at which a clock that is `offset` seconds ahead of universal time shows `c`. -/
def Instant.ofClock (c : Clock) (offset : Int) : Instant :=
  let leap := if c.second = 60 then 1 else 0
  { seconds := (c.date.toDays - epochDay) * daySeconds + (c.hour * 3600 + c.minute * 60 : Nat) +
      (c.second - leap : Nat) - offset
    nanos := c.nanos + leap * secondNanos }

/-- Does an instant lie in a year that instants may lie in? -/
def Instant.isSupported (t : Instant) : Bool :=
  isSupportedYear (Date.ofDays (t.seconds / daySeconds + epochDay)).year

/-- Can a clock show an instant? Its year has to be supported, and a leap second follows the last
second of a minute. -/
def Instant.hasClock (t : Instant) : Bool :=
  t.isSupported && t.nanos < 2 * secondNanos && (t.nanos < secondNanos || t.seconds % 60 == 59)

end ResponseExport.Time
