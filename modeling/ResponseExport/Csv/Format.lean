/-!
# `ResponseExport.Csv.Format`: lines of separated values

A line is its fields with a delimiter between them and a line feed at the end. A field that holds
the delimiter, the quote, a carriage return or a line feed is written between quotes, with the
quotes inside it doubled; every other field is written as it is. A line without bytes would be read
as nothing, so a line of no field or of one empty field is written as two quotes.
-/

set_option autoImplicit false

namespace ResponseExport.Csv

/-- The special bytes of a file. -/
structure Dialect where
  delimiter : UInt8 := 44
  quote : UInt8 := 34
  deriving Repr, DecidableEq

namespace Dialect

/-- The line feed, which ends a line. -/
def lineFeed : UInt8 := 10

/-- The carriage return, which some readers take for the end of a line. -/
def carriageReturn : UInt8 := 13

/-- Does a byte make quotes necessary? -/
def isSpecial (d : Dialect) (b : UInt8) : Bool :=
  b == d.delimiter || b == d.quote || b == carriageReturn || b == lineFeed

/-- A field between quotes. -/
def quoted (d : Dialect) (bs : List UInt8) : List UInt8 :=
  d.quote :: (bs.flatMap (fun b => if b = d.quote then [b, b] else [b]) ++ [d.quote])

/-- A field as it is written. -/
def field (d : Dialect) (bs : List UInt8) : List UInt8 :=
  if bs.any d.isSpecial then d.quoted bs else bs

/-- Fields with delimiters between them. -/
def joined (d : Dialect) : List (List UInt8) → List UInt8
  | [] => []
  | [f] => d.field f
  | f :: fs => d.field f ++ d.delimiter :: d.joined fs

/-- A line. -/
def line (d : Dialect) (fs : List (List UInt8)) : List UInt8 :=
  (if (d.joined fs).isEmpty then [d.quote, d.quote] else d.joined fs) ++ [lineFeed]

end Dialect

end ResponseExport.Csv
