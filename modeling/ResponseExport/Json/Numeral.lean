import ResponseExport.Json.Basic
import ResponseExport.Json.Failure
import ResponseExport.Decimal.Double

/-!
# `ResponseExport.Json.Numeral`: numbers in JSON text

A numeral is read digit by digit, without leading zeros; what number it stands for is a second
question. It stands for an integer if it has neither fraction nor exponent and fits 64 bits, and
for a binary64 number otherwise (`-0` too, which no integer is). A numeral beyond binary64 stands
for nothing.
-/

set_option autoImplicit false

namespace ResponseExport.Json

/-- A numeral as written. -/
structure Numeral where
  negative : Bool
  /-- The digits before the point. -/
  whole : List Nat
  /-- The digits behind the point; none if there is no point. -/
  fraction : List Nat
  /-- The exponent: is it negative, and its digits. -/
  exponent : Option (Bool × List Nat)
  deriving Repr, DecidableEq

namespace Numeral

/-- Is the byte a digit? -/
def isDigit (b : UInt8) : Bool := 48 ≤ b && b ≤ 57

/-- The values of the digits at the head, and what follows them. -/
def digits (bs : List UInt8) : List Nat × List UInt8 :=
  ((bs.takeWhile isDigit).map (·.toNat - 48), bs.dropWhile isDigit)

/-- Reads the digits of an exponent, behind its sign. -/
def readPower (negative : Bool) (bs : List UInt8) :
    Except Failure (Option (Bool × List Nat) × List UInt8) :=
  match bs with
  | [] => .error (.before .endInValue [])
  | b :: rest =>
    if isDigit b then
      let (ds, rest) := digits bs
      .ok (some (negative, ds), rest)
    else .error (.before .invalidNumber rest)

/-- Reads an exponent, if there is one. -/
def readExponent (bs : List UInt8) :
    Except Failure (Option (Bool × List Nat) × List UInt8) :=
  match bs with
  | b :: rest =>
    if b = 101 ∨ b = 69 then
      match rest with
      | 43 :: rest => readPower false rest
      | 45 :: rest => readPower true rest
      | _ => readPower false rest
    else .ok (none, bs)
  | [] => .ok (none, bs)

/-- Reads a fraction, if there is one. -/
def readFraction (bs : List UInt8) : Except Failure (List Nat × List UInt8) :=
  match bs with
  | 46 :: rest =>
    match rest with
    | [] => .error (.at .endInValue [])
    | b :: _ => if isDigit b then .ok (digits rest) else .error (.at .invalidNumber rest)
  | _ => .ok ([], bs)

/-- Reads the digits before the point: a zero alone, or digits that start with another. -/
def readWhole (bs : List UInt8) : Except Failure (List Nat × List UInt8) :=
  match bs with
  | [] => .error (.before .endInValue [])
  | 48 :: rest =>
    match rest with
    | b :: _ => if isDigit b then .error (.at .invalidNumber rest) else .ok ([0], rest)
    | [] => .ok ([0], rest)
  | b :: rest => if isDigit b then .ok (digits bs) else .error (.before .invalidNumber rest)

/-- Reads what follows the sign. -/
def readUnsigned (negative : Bool) (bs : List UInt8) : Except Failure (Numeral × List UInt8) := do
  let (whole, bs) ← readWhole bs
  let (fraction, bs) ← readFraction bs
  let (exponent, bs) ← readExponent bs
  return (⟨negative, whole, fraction, exponent⟩, bs)

/-- Reads a numeral, and what follows it. -/
def read (bs : List UInt8) : Except Failure (Numeral × List UInt8) :=
  match bs with
  | 45 :: rest => readUnsigned true rest
  | _ => readUnsigned false bs

/-! ### The number that a numeral stands for -/

/-- Whole numbers below this one, `2^64`, stay whole. -/
def wordLimit : Nat := 18446744073709551616

/-- With a minus sign, those up to this one, `2^63`, do. -/
def minusLimit : Nat := 9223372036854775808

/-- Appends digits to a significand as long as it fits 64 bits; also what digits are left. -/
def gather : Nat → List Nat → Nat × List Nat
  | acc, [] => (acc, [])
  | acc, d :: ds => if acc * 10 + d < wordLimit then gather (acc * 10 + d) ds else (acc, d :: ds)

/-- The largest exponent that is looked at, `2^31 - 1`. -/
def maxExponent : Nat := 2147483647

/-- The value of digits. -/
def digitsValue (ds : List Nat) : Nat := ds.foldl (fun acc d => acc * 10 + d) 0

/-- Does a numeral have an exponent too large to be looked at? -/
def hasHugeExponent (n : Numeral) : Bool :=
  match n.exponent with
  | some (_, ds) => maxExponent < digitsValue ds
  | none => false

/-- The significand of a numeral, and the power of ten that goes with it. Digits before the point
that do not fit count in the power; digits behind it that do not fit are left out. -/
def parts (n : Numeral) : Nat × Int :=
  let (s, excess) := gather 0 n.whole
  let (s, out) := gather s n.fraction
  let e : Int := (excess.length : Int) - ((n.fraction.length : Int) - out.length)
  match n.exponent with
  | none => (s, e)
  | some (true, ds) => (s, e - digitsValue ds)
  | some (false, ds) => (s, e + digitsValue ds)

/-- The binary64 number that a numeral stands for. -/
def double? (n : Numeral) : Option Number :=
  let (s, e) := n.parts
  let magnitude? :=
    if n.hasHugeExponent then
      match n.exponent with
      | some (false, _) => if s = 0 then some 0 else none
      | _ => some 0
    else Decimal.ofParts? (UInt64.ofNat s) e
  magnitude?.map fun x => .double (if n.negative then -x else x).toBits

/-- The number that a numeral stands for. -/
def number? (n : Numeral) : Option Number :=
  let value := digitsValue n.whole
  if n.fraction.isEmpty ∧ n.exponent.isNone then
    if n.negative then
      if 0 < value ∧ value ≤ minusLimit then some (.integer (-(value : Int))) else n.double?
    else if value < wordLimit then some (.integer value) else n.double?
  else n.double?

/-- How many digits of an exponent are read before it is known to be too large. -/
def hugeAfter (ds : List Nat) : Nat → Nat → Nat
  | acc, n =>
    match ds with
    | [] => n
    | d :: ds => if maxExponent < acc * 10 + d then n + 1 else hugeAfter ds (acc * 10 + d) (n + 1)

/-- The number of a numeral in front of `rest`, or the failure to have one. -/
def number (n : Numeral) (rest : List UInt8) : Except Failure Number :=
  match n.number? with
  | some v => .ok v
  | none =>
    let unread := match n.exponent with
      | some (_, ds) => if n.hasHugeExponent then ds.length - hugeAfter ds 0 0 else 0
      | none => 0
    .error ⟨.numberOutOfRange, rest.length + unread⟩

end Numeral

end ResponseExport.Json
