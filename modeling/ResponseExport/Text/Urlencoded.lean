import ResponseExport.Text.Bytes

/-!
# `ResponseExport.Text.Urlencoded`: percent signs and query strings

A percent sign and two digits of base sixteen stand for a byte; any other percent sign stands for
itself. A query string is a list of pairs with `&` between them and `=` between name and value,
where a plus sign stands for a space and bytes that are no UTF-8 for U+FFFD.
-/

set_option autoImplicit false

namespace ResponseExport.Text

/-- The value of a digit of base sixteen, given by its byte. -/
def hexDigit? (b : UInt8) : Option Nat :=
  let n := b.toNat
  if 48 ≤ n ∧ n ≤ 57 then some (n - 48)
  else if 97 ≤ n ∧ n ≤ 102 then some (n - 87)
  else if 65 ≤ n ∧ n ≤ 70 then some (n - 55)
  else none

/-- The byte that two digits stand for. -/
def escaped? (a b : UInt8) : Option UInt8 := do
  let high ← hexDigit? a
  let low ← hexDigit? b
  return UInt8.ofNat (high * 16 + low)

/-- Replaces every percent sign that is followed by two digits. -/
def percentDecode : List UInt8 → List UInt8
  | 37 :: a :: b :: rest =>
    match escaped? a b with
    | some c => c :: percentDecode rest
    | none => 37 :: percentDecode (a :: b :: rest)
  | c :: rest => c :: percentDecode rest
  | [] => []

/-- The parts of a byte sequence between the bytes `sep`. -/
def splitAt (sep : UInt8) : List UInt8 → List (List UInt8)
  | [] => [[]]
  | b :: rest =>
    if b = sep then [] :: splitAt sep rest
    else
      match splitAt sep rest with
      | part :: parts => (b :: part) :: parts
      | [] => [[b]]

/-- One name or value of a query string. -/
def queryText (bs : List UInt8) : String :=
  ofBytesLossy (percentDecode (bs.map fun b => if b = 43 then 32 else b))

/-- The pairs of a query string. Empty parts are passed over. -/
def queryPairs (bs : List UInt8) : List (String × String) :=
  ((splitAt 38 bs).filter (!·.isEmpty)).map fun part =>
    (queryText (part.takeWhile (· != 61)), queryText ((part.dropWhile (· != 61)).drop 1))

end ResponseExport.Text
