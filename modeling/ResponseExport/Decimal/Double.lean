/-!
# `ResponseExport.Decimal.Double`: binary64 numbers from decimals

A decimal is read into a binary64 number in two roundings: the digits that fit 64 bits are
rounded, and the result is multiplied or divided by a power of ten, itself rounded. A result that
is too large is refused; one that is too small is zero.
-/

set_option autoImplicit false

namespace ResponseExport.Decimal

/-- The largest power of ten that a binary64 number can hold. -/
def maxPower : Nat := 308

/-- `10 ^ n` for `n` up to `maxPower`, correctly rounded. -/
def power (n : Nat) : Float := Float.ofScientific 1 false n

/-- Divides by `10 ^ n`, by at most `10 ^ 308` at a time. -/
def shrink (x : Float) (n : Nat) : Float :=
  if n ≤ maxPower then x / power n
  else if x == 0 then x
  else shrink (x / power maxPower) (n - maxPower)
termination_by n
decreasing_by simp only [maxPower] at *; omega

/-- The binary64 number for `significand * 10 ^ exponent`, unless it is too large. -/
def ofParts? (significand : UInt64) (exponent : Int) : Option Float :=
  let x := significand.toFloat
  if 0 ≤ exponent then
    if exponent ≤ maxPower then
      let y := x * power exponent.toNat
      if y.isInf then none else some y
    else if x == 0 then some x
    else none
  else some (shrink x (-exponent).toNat)

end ResponseExport.Decimal
