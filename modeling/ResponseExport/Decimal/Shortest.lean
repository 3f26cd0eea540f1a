/-!
# `ResponseExport.Decimal.Shortest`: the shortest decimal that reads back

A finite binary64 number other than zero is `m * 2 ^ q` with whole `m` and `q`. Every real number
of an interval around it rounds to it; the ends belong to the interval exactly if `m` is even.
`Decimal.shortest` finds the decimal with the fewest digits in that interval: on each grid of one,
two, … seventeen digits it tests the two neighbours of the number, in exact arithmetic.

The text of a number (`Decimal.text`) is positional from `0.00001` up to sixteen digits before the
point, and has an exponent beyond.
-/

set_option autoImplicit false

namespace ResponseExport.Decimal

/-- A positive binary number with the interval of reals that round to it. -/
structure Binary where
  /-- The mantissa. -/
  m : Nat
  /-- The power of two. -/
  q : Int
  /-- Is the next smaller number half as far away as the next larger one? -/
  narrow : Bool
  deriving Repr, DecidableEq

/-- The bit that stands before the fraction of every number but the smallest, `2^52`. -/
def hiddenBit : Nat := 0x10000000000000

/-- The bit of the sign, `2^63`. -/
def signBit : Nat := 0x8000000000000000

/-- The absolute value of a binary64 number, given by its bits, if it is finite and not zero. -/
def Binary.ofBits (bits : UInt64) : Option Binary :=
  let fraction : Nat := bits.toNat % hiddenBit
  let biased : Nat := bits.toNat / hiddenBit % 0x800
  if biased = 0x7FF then none
  else if biased = 0 then
    if fraction = 0 then none else some ⟨fraction, -1074, false⟩
  else some ⟨hiddenBit + fraction, (biased : Int) - 1075, fraction = 0 ∧ 1 < biased⟩

/-- A positive decimal `digits * 10 ^ exponent`. -/
structure Digits where
  digits : Nat
  exponent : Int
  deriving Repr, DecidableEq

/-- `10 ^ e` as a fraction: numerator. -/
def powNum (base : Nat) (e : Int) : Nat := Nat.pow base e.toNat

/-- `10 ^ e` as a fraction: denominator. -/
def powDen (base : Nat) (e : Int) : Nat := Nat.pow base (-e).toNat

/-- A quarter of the unit of the mantissa, times `k`, in units of `10 ^ g`: numerator. -/
def Binary.quarters (b : Binary) (g : Int) (k : Nat) : Nat :=
  k * powNum 2 (b.q - 2) * powDen 10 g

/-- The denominator that goes with `Binary.quarters`. -/
def Binary.scale (b : Binary) (g : Int) : Nat := powDen 2 (b.q - 2) * powNum 10 g

/-- Does `d * 10 ^ g` round to the number? -/
def Binary.admits (b : Binary) (g : Int) (d : Nat) : Bool :=
  let low := b.quarters g (if b.narrow then 4 * b.m - 1 else 4 * b.m - 2)
  let high := b.quarters g (4 * b.m + 2)
  let x := d * b.scale g
  if b.m % 2 = 0 then decide (low ≤ x ∧ x ≤ high) else decide (low < x ∧ x < high)

/-- The number's neighbour on the grid `10 ^ g` that rounds to it; of two the nearer, and of two
equally near the even one. -/
def Binary.onGrid (b : Binary) (g : Int) : Option Nat :=
  let value := b.quarters g (4 * b.m)
  let unit := b.scale g
  let d := value / unit
  match b.admits g d, b.admits g (d + 1) with
  | true, true =>
    let below := value - d * unit
    let above := (d + 1) * unit - value
    some (if below < above then d else if above < below then d + 1
      else if d % 2 = 0 then d else d + 1)
  | true, false => some d
  | false, true => some (d + 1)
  | false, false => none

/-- The exponent of the leading digit: `10 ^ e` is at most the number, `10 ^ (e + 1)` above. -/
def Binary.magnitude (b : Binary) : Int :=
  let num := b.m * powNum 2 b.q
  let den := powDen 2 b.q
  if den ≤ num then ((Nat.toDigits 10 (num / den)).length : Int) - 1
  else -((Nat.toDigits 10 ((den + num - 1) / num - 1)).length : Int)

/-- The first of the grids with `n`, `n + 1`, … digits that has a hit. -/
def Binary.search (b : Binary) : Nat → Nat → Digits
  | 0, n => ⟨b.m, b.magnitude - n⟩
  | fuel + 1, n =>
    let g := b.magnitude - (n : Int) + 1
    match b.onGrid g with
    | some d => ⟨d, g⟩
    | none => b.search fuel (n + 1)

/-- The decimal of fewest digits that rounds to the number. -/
def Binary.shortest (b : Binary) : Digits := b.search 17 1

/-! ### Text -/

/-- Digits without the zeros at their end, and how many those were. -/
def stripZeros (cs : List Char) : List Char × Nat :=
  let zeros := (cs.reverse.takeWhile (· == '0')).length
  (cs.take (cs.length - zeros), zeros)

/-- The text of a positive decimal. Scientific exponents from -5 to 15 are written out. -/
def Digits.text (d : Digits) : String :=
  let (cs, zeros) := stripZeros (Nat.toDigits 10 d.digits)
  let e : Int := d.exponent + zeros
  let point : Int := cs.length + e
  let written :=
    if 16 < point ∨ point < -4 then
      let sign := if 0 < point then '+' else '-'
      let power := Nat.toDigits 10 (point - 1).natAbs
      match cs with
      | [] => ['0']
      | [c] => c :: 'e' :: sign :: power
      | c :: rest => c :: '.' :: (rest ++ 'e' :: sign :: power)
    else if 0 ≤ e then cs ++ List.replicate e.toNat '0' ++ ['.', '0']
    else if 0 < point then cs.take point.toNat ++ '.' :: cs.drop point.toNat
    else ['0', '.'] ++ List.replicate (-point).toNat '0' ++ cs
  String.ofList written

/-- The text of a finite binary64 number, given by its bits. -/
def text (bits : UInt64) : String :=
  let body := match Binary.ofBits bits with
    | some b => b.shortest.text
    | none => "0.0"
  if signBit ≤ bits.toNat then "-" ++ body else body

end ResponseExport.Decimal
