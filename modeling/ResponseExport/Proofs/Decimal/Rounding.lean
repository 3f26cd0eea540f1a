import Mathlib
import ResponseExport.Decimal.Shortest

/-!
# `ResponseExport.Proofs.Decimal.Rounding`: what rounds to a binary64 number

The bits of a binary64 number, without the sign, count these numbers upwards from zero:
`valueOf n` is the one with the bits `n`. What lies between two of them rounds to the nearer
one, and from halfway to the one whose last bit is clear. So `Rounds n` is an interval that
ends halfway to the two neighbours.

A `Binary` holds this interval in quarters of the unit of its mantissa. `isOf_ofBits` says
that it is the right one: the number below is half as far away as the number above if the
mantissa is the smallest one of its power of two, and otherwise as far. The test in whole
numbers, `Binary.admits`, is the one for this interval (`admits_iff`).
-/

set_option autoImplicit false

namespace ResponseExport.Decimal

/-! ### Numbers and their neighbours -/

/-- The number with these bits and a clear sign. The bits of infinity stand for the number
that would come after the largest one. -/
def valueOf (n : Nat) : ℚ :=
  if n < 2 ^ 52 then n * 2 ^ (-1074 : ℤ)
  else (2 ^ 52 + n % 2 ^ 52 : ℕ) * 2 ^ ((n / 2 ^ 52 : ℕ) - 1075 : ℤ)

/-- The exact number rounds to the one with these bits: it is not beyond the middle between it
and a neighbour, and in the middle only if the last bit is clear. -/
def Rounds (n : Nat) (x : ℚ) : Prop :=
  let low := (valueOf (n - 1) + valueOf n) / 2
  let high := (valueOf n + valueOf (n + 1)) / 2
  if n % 2 = 0 then low ≤ x ∧ x ≤ high else low < x ∧ x < high

/-- Below `2 ^ 53` the bits count multiples of the smallest number. -/
theorem valueOf_of_lt {n : Nat} (h : n < 2 ^ 53) : valueOf n = n * 2 ^ (-1074 : ℤ) := by
  rw [valueOf]
  split
  · rfl
  · rename_i hle
    have hdiv : n / 2 ^ 52 = 1 := by omega
    have hmod : 2 ^ 52 + n % 2 ^ 52 = n := by omega
    rw [hdiv, hmod]
    norm_num

/-- Within a power of two the bits count multiples of its unit, up to the next power of two. -/
theorem valueOf_of_le {e f : Nat} (he : 1 ≤ e) (hf : f ≤ 2 ^ 52) :
    valueOf (e * 2 ^ 52 + f) = (2 ^ 52 + f : ℕ) * 2 ^ ((e : ℤ) - 1075) := by
  have hle : ¬ e * 2 ^ 52 + f < 2 ^ 52 := by omega
  rw [valueOf, if_neg hle]
  rcases Nat.lt_or_eq_of_le hf with hlt | rfl
  · have hdiv : (e * 2 ^ 52 + f) / 2 ^ 52 = e := by omega
    have hmod : (e * 2 ^ 52 + f) % 2 ^ 52 = f := by omega
    rw [hdiv, hmod]
  · -- The next power of two has a unit twice as large, and half the mantissa.
    have hdiv : (e * 2 ^ 52 + 2 ^ 52) / 2 ^ 52 = e + 1 := by omega
    have hmod : (e * 2 ^ 52 + 2 ^ 52) % 2 ^ 52 = 0 := by omega
    have hpower : ((e + 1 : ℕ) : ℤ) - 1075 = (e : ℤ) - 1075 + 1 := by
      push_cast
      ring
    rw [hdiv, hmod, hpower, zpow_add₀ (by norm_num), zpow_one]
    push_cast
    ring

/-! ### Intervals -/

namespace Binary

/-- The number. -/
def value (b : Binary) : ℚ := b.m * 2 ^ b.q

/-- Halfway to the number below. -/
def low (b : Binary) : ℚ :=
  (if b.narrow then 4 * (b.m : ℚ) - 1 else 4 * (b.m : ℚ) - 2) * 2 ^ (b.q - 2)

/-- Halfway to the number above. -/
def high (b : Binary) : ℚ := (4 * b.m + 2) * 2 ^ (b.q - 2)

/-- The exact number lies in the interval. -/
def Admits (b : Binary) (x : ℚ) : Prop :=
  if b.m % 2 = 0 then b.low ≤ x ∧ x ≤ b.high else b.low < x ∧ x < b.high

/-- This is the number with these bits. -/
structure IsOf (b : Binary) (n : Nat) : Prop where
  value_eq : valueOf n = b.value
  low_eq : (valueOf (n - 1) + valueOf n) / 2 = b.low
  high_eq : (valueOf n + valueOf (n + 1)) / 2 = b.high
  parity : n % 2 = b.m % 2
  pos : 1 ≤ b.m
  lt : b.m < 2 ^ 53
  /-- Only the smallest mantissa has a nearer neighbour below. -/
  narrow : b.narrow = true → b.m = 2 ^ 52

variable {b : Binary} {n : Nat} {x y : ℚ}

/-- A unit is four quarters. -/
theorem zpow_eq_four (q : ℤ) : (2 : ℚ) ^ q = 4 * 2 ^ (q - 2) := by
  rw [zpow_sub₀ (by norm_num)]
  norm_num
  ring

theorem value_eq_quarters (b : Binary) : b.value = 4 * b.m * 2 ^ (b.q - 2) := by
  rw [value, zpow_eq_four]
  ring

/-- Where the number below is as far away as the number above. -/
theorem low_eq_of_wide (hvalue : valueOf n = b.value)
    (hbelow : valueOf (n - 1) = ((b.m : ℚ) - 1) * 2 ^ b.q) (hwide : b.narrow = false) :
    (valueOf (n - 1) + valueOf n) / 2 = b.low := by
  rw [hbelow, hvalue, value_eq_quarters, zpow_eq_four b.q, low, hwide]
  simp only [Bool.false_eq_true, if_false]
  ring

theorem high_eq_of_above (hvalue : valueOf n = b.value)
    (habove : valueOf (n + 1) = ((b.m : ℚ) + 1) * 2 ^ b.q) :
    (valueOf n + valueOf (n + 1)) / 2 = b.high := by
  rw [habove, hvalue, value_eq_quarters, zpow_eq_four b.q, high]
  ring

theorem isOf_small (hpos : 1 ≤ n) (h : n < 2 ^ 52) : IsOf ⟨n, -1074, false⟩ n where
  value_eq := valueOf_of_lt (by omega)
  low_eq := by
    refine low_eq_of_wide (valueOf_of_lt (by omega)) ?_ rfl
    rw [valueOf_of_lt (by omega), Nat.cast_sub hpos, Nat.cast_one]
  high_eq := by
    refine high_eq_of_above (valueOf_of_lt (by omega)) ?_
    rw [valueOf_of_lt (by omega), Nat.cast_add, Nat.cast_one]
  parity := rfl
  pos := hpos
  lt := by
    show n < 2 ^ 53
    omega
  narrow := nofun

/-- The smallest mantissa of a power of two but the smallest: the number below has the largest
mantissa and half the unit. -/
theorem low_eq_of_narrow {e : Nat} (he : 1 < e) :
    (valueOf (e * 2 ^ 52 - 1) + valueOf (e * 2 ^ 52)) / 2
      = (4 * (2 ^ 52 : ℚ) - 1) * 2 ^ ((e : ℤ) - 1075 - 2) := by
  have hbelow : e * 2 ^ 52 - 1 = (e - 1) * 2 ^ 52 + (2 ^ 52 - 1) := by omega
  have hunit : ((e - 1 : ℕ) : ℤ) - 1075 = (e : ℤ) - 1075 - 2 + 1 := by omega
  have hvalue := valueOf_of_le (Nat.le_of_lt he) (Nat.zero_le (2 ^ 52))
  rw [Nat.add_zero, zpow_eq_four] at hvalue
  rw [hvalue, hbelow, valueOf_of_le (by omega) (by omega), hunit, zpow_add₀ (by norm_num), zpow_one]
  norm_num
  ring

theorem isOf_large {e f : Nat} (he : 1 ≤ e) (hf : f < 2 ^ 52) :
    IsOf ⟨2 ^ 52 + f, (e : ℤ) - 1075, decide (f = 0 ∧ 1 < e)⟩ (e * 2 ^ 52 + f) where
  value_eq := valueOf_of_le he (Nat.le_of_lt hf)
  low_eq := by
    by_cases hnarrow : f = 0 ∧ 1 < e
    · obtain ⟨rfl, hlt⟩ := hnarrow
      rw [low, decide_eq_true ⟨rfl, hlt⟩, if_pos rfl, Nat.add_zero, Nat.add_zero, Nat.cast_pow,
        Nat.cast_ofNat]
      exact low_eq_of_narrow hlt
    · refine low_eq_of_wide (valueOf_of_le he (Nat.le_of_lt hf)) ?_ (decide_eq_false hnarrow)
      rcases Nat.eq_zero_or_pos f with rfl | hpos
      · -- The smallest power of two has the same unit as what is below it.
        obtain rfl : e = 1 := by omega
        rw [valueOf_of_lt (by omega)]
        norm_num
      · have hbelow : e * 2 ^ 52 + f - 1 = e * 2 ^ 52 + (f - 1) := by omega
        have hmantissa : 2 ^ 52 + (f - 1) = 2 ^ 52 + f - 1 := by omega
        rw [hbelow, valueOf_of_le he (by omega), hmantissa, Nat.cast_sub (by omega), Nat.cast_one]
  high_eq := by
    refine high_eq_of_above (valueOf_of_le he (Nat.le_of_lt hf)) ?_
    rw [Nat.add_assoc, valueOf_of_le he (by omega), ← Nat.add_assoc, Nat.cast_add, Nat.cast_one]
  parity := by
    show (e * 2 ^ 52 + f) % 2 = (2 ^ 52 + f) % 2
    omega
  pos := by
    show 1 ≤ 2 ^ 52 + f
    omega
  lt := by
    show 2 ^ 52 + f < 2 ^ 53
    omega
  narrow := by
    intro hnarrow
    have hzero := (of_decide_eq_true hnarrow).1
    show 2 ^ 52 + f = 2 ^ 52
    omega

theorem hiddenBit_eq : hiddenBit = 2 ^ 52 := by
  rw [hiddenBit]
  norm_num

/-- **What is taken from the bits is the number with these bits**, and its interval. -/
theorem isOf_ofBits {bits : UInt64} (h : ofBits bits = some b) : b.IsOf (bits.toNat % 2 ^ 63) := by
  have hfraction : bits.toNat % 2 ^ 52 = bits.toNat % 2 ^ 63 % 2 ^ 52 := by omega
  have hbiased : bits.toNat / 2 ^ 52 % 0x800 = bits.toNat % 2 ^ 63 / 2 ^ 52 := by omega
  simp only [ofBits, hiddenBit_eq, hfraction, hbiased] at h
  generalize bits.toNat % 2 ^ 63 = n at h ⊢
  split at h
  · cases h
  · split at h
    · split at h
      · cases h
      · obtain rfl := Option.some.inj h
        have hmod : n % 2 ^ 52 = n := by omega
        rw [hmod]
        exact isOf_small (by omega) (by omega)
    · obtain rfl := Option.some.inj h
      have hlarge := isOf_large (e := n / 2 ^ 52) (f := n % 2 ^ 52) (by omega) (by omega)
      rwa [Nat.div_add_mod'] at hlarge

/-- Of the finite numbers, nothing is taken from zero only. -/
theorem eq_zero_of_ofBits {bits : UInt64} (hfinite : bits.toNat / 2 ^ 52 % 2 ^ 11 ≠ 2 ^ 11 - 1)
    (h : ofBits bits = none) : bits.toNat % 2 ^ 63 = 0 := by
  simp only [ofBits, hiddenBit_eq] at h
  split at h
  · rename_i hinfinite
    exact absurd hinfinite hfinite
  · split at h
    · split at h
      · omega
      · cases h
    · cases h

theorem IsOf.rounds_iff (h : b.IsOf n) : Rounds n x ↔ b.Admits x := by
  rw [Rounds, h.low_eq, h.high_eq, h.parity, Admits]

/-! ### The test in whole numbers -/

/-- A power is a fraction of whole powers. -/
theorem zpow_eq_div {base : Nat} (hbase : 0 < base) (e : ℤ) :
    (base : ℚ) ^ e = powNum base e / powDen base e := by
  have hne : (base : ℚ) ≠ 0 := by positivity
  show (base : ℚ) ^ e = ((base ^ e.toNat : ℕ) : ℚ) / ((base ^ (-e).toNat : ℕ) : ℚ)
  have hsplit : e = (e.toNat : ℤ) - ((-e).toNat : ℤ) := by omega
  conv_lhs => rw [hsplit, zpow_sub₀ hne, zpow_natCast, zpow_natCast]
  push_cast
  rfl

theorem powNum_pos {base : Nat} (hbase : 0 < base) (e : ℤ) : 0 < powNum base e :=
  Nat.pow_pos hbase

theorem powDen_pos {base : Nat} (hbase : 0 < base) (e : ℤ) : 0 < powDen base e :=
  Nat.pow_pos hbase

theorem scale_pos (b : Binary) (g : ℤ) : 0 < b.scale g :=
  Nat.mul_pos (powDen_pos (by decide) _) (powNum_pos (by decide) _)

/-- Quarters of the unit, measured on the grid. -/
theorem quarters_eq (b : Binary) (g : ℤ) (k : Nat) :
    (b.quarters g k : ℚ) * 10 ^ g = k * 2 ^ (b.q - 2) * b.scale g := by
  have htwo := zpow_eq_div (by decide : 0 < 2) (b.q - 2)
  have hten := zpow_eq_div (by decide : 0 < 10) g
  have hden : (powDen 2 (b.q - 2) : ℚ) ≠ 0 :=
    Nat.cast_ne_zero.mpr (Nat.ne_of_gt (powDen_pos (by decide) _))
  have hden' : (powDen 10 g : ℚ) ≠ 0 :=
    Nat.cast_ne_zero.mpr (Nat.ne_of_gt (powDen_pos (by decide) _))
  push_cast at htwo hten
  rw [htwo, hten, quarters, scale]
  push_cast
  field_simp

theorem quarters_le_iff (b : Binary) (g : ℤ) (k d : Nat) :
    b.quarters g k ≤ d * b.scale g ↔ (k : ℚ) * 2 ^ (b.q - 2) ≤ d * 10 ^ g := by
  have hscale : (0 : ℚ) < b.scale g := Nat.cast_pos.mpr (b.scale_pos g)
  have hgrid : (0 : ℚ) < 10 ^ g := by positivity
  rw [← mul_le_mul_iff_of_pos_right hscale, ← quarters_eq, mul_right_comm,
    mul_le_mul_iff_of_pos_right hgrid, ← Nat.cast_mul, Nat.cast_le]

theorem le_quarters_iff (b : Binary) (g : ℤ) (k d : Nat) :
    d * b.scale g ≤ b.quarters g k ↔ (d : ℚ) * 10 ^ g ≤ k * 2 ^ (b.q - 2) := by
  have hscale : (0 : ℚ) < b.scale g := Nat.cast_pos.mpr (b.scale_pos g)
  have hgrid : (0 : ℚ) < 10 ^ g := by positivity
  rw [← mul_le_mul_iff_of_pos_right hscale, ← quarters_eq, mul_right_comm,
    mul_le_mul_iff_of_pos_right hgrid, ← Nat.cast_mul, Nat.cast_le]

/-- **A point of a grid is admitted if it lies in the interval.** -/
theorem admits_iff (hpos : 1 ≤ b.m) (g : ℤ) (d : Nat) :
    b.admits g d = true ↔ b.Admits (d * 10 ^ g) := by
  have hlow : b.low
      = ((if b.narrow then 4 * b.m - 1 else 4 * b.m - 2 : ℕ) : ℚ) * 2 ^ (b.q - 2) := by
    rw [low]
    split
    · rw [Nat.cast_sub (by omega)]
      push_cast
      rfl
    · rw [Nat.cast_sub (by omega)]
      push_cast
      rfl
  have hhigh : b.high = ((4 * b.m + 2 : ℕ) : ℚ) * 2 ^ (b.q - 2) := by
    rw [high]
    push_cast
    rfl
  rw [admits, Admits, hlow, hhigh]
  split
  · rw [decide_eq_true_iff, quarters_le_iff, le_quarters_iff]
  · rw [decide_eq_true_iff, ← not_le, ← not_le, ← not_le, ← not_le, quarters_le_iff,
      le_quarters_iff]

/-! ### Intervals are convex -/

theorem low_pos (hpos : 1 ≤ b.m) : 0 < b.low := by
  have hm : (1 : ℚ) ≤ b.m := by exact_mod_cast hpos
  rw [low]
  split <;> exact mul_pos (by linarith) (by positivity)

theorem low_lt_value (b : Binary) : b.low < b.value := by
  rw [value_eq_quarters, low]
  refine mul_lt_mul_of_pos_right ?_ (by positivity)
  split <;> linarith

theorem value_lt_high (b : Binary) : b.value < b.high := by
  rw [value_eq_quarters, high]
  exact mul_lt_mul_of_pos_right (by linarith) (by positivity)

theorem Admits.pos (hpos : 1 ≤ b.m) (h : b.Admits x) : 0 < x := by
  rw [Admits] at h
  split at h
  · exact (low_pos hpos).trans_le h.1
  · exact (low_pos hpos).trans h.1

/-- What lies between the number and something that is admitted is admitted. -/
theorem Admits.of_ge (h : b.Admits x) (hxy : x ≤ y) (hy : y ≤ b.value) : b.Admits y := by
  have hhigh := hy.trans_lt b.value_lt_high
  rw [Admits] at h ⊢
  split at h
  · rename_i heven
    rw [if_pos heven]
    exact ⟨h.1.trans hxy, hhigh.le⟩
  · rename_i hodd
    rw [if_neg hodd]
    exact ⟨h.1.trans_le hxy, hhigh⟩

theorem Admits.of_le (h : b.Admits x) (hy : b.value ≤ y) (hyx : y ≤ x) : b.Admits y := by
  have hlow := b.low_lt_value.trans_le hy
  rw [Admits] at h ⊢
  split at h
  · rename_i heven
    rw [if_pos heven]
    exact ⟨hlow.le, hyx.trans h.2⟩
  · rename_i hodd
    rw [if_neg hodd]
    exact ⟨hlow, hyx.trans_lt h.2⟩

/-- What is not admitted lies at an end of the interval or beyond it. -/
theorem le_low_of_not_admits (h : ¬ b.Admits x) (hx : x ≤ b.value) : x ≤ b.low := by
  by_contra hlow
  have hlow := not_le.mp hlow
  have hhigh := hx.trans_lt b.value_lt_high
  refine h ?_
  rw [Admits]
  split
  · exact ⟨hlow.le, hhigh.le⟩
  · exact ⟨hlow, hhigh⟩

theorem high_le_of_not_admits (h : ¬ b.Admits x) (hx : b.value ≤ x) : b.high ≤ x := by
  by_contra hhigh
  have hhigh := not_le.mp hhigh
  have hlow := b.low_lt_value.trans_le hx
  refine h ?_
  rw [Admits]
  split
  · exact ⟨hlow.le, hhigh.le⟩
  · exact ⟨hlow, hhigh⟩

end Binary

end ResponseExport.Decimal
