import ResponseExport.Proofs.Decimal.Rounding

/-!
# `ResponseExport.Proofs.Decimal.Shortest`: no shorter decimal reads back

`Binary.shortest` looks at the two points next to a number on a grid of one digit, of two digits
and so on, and takes the first that rounds to the number. This module shows that it takes the
right one (`isShortest_shortest`):

* A grid with a point in the interval of a number has one next to the number, because the
  interval is convex (`onGrid_eq_none`). Of two it takes the nearer (`onGrid_eq_some`).
* A grid of seventeen digits is narrower than any interval (`exists_onGrid`).
* A point of a coarse grid is one of every finer grid. So nothing on a coarser grid has been
  overlooked, nor beyond the power of ten below the number, which is on all these grids.
-/

set_option autoImplicit false

namespace ResponseExport.Decimal

/-- The exact number is one of at most `k` digits, times a power of ten. -/
def HasDigits (k : Nat) (x : ℚ) : Prop := ∃ (c : Nat) (j : ℤ), c < 10 ^ k ∧ x = c * 10 ^ j

/-- The decimal is the shortest one that rounds to the number with these bits. -/
structure IsShortest (n : Nat) (x : ℚ) : Prop where
  rounds : Rounds n x
  /-- If a decimal of `k` digits rounds to the number, this one has no more. -/
  fewest : ∀ k y, Rounds n y → HasDigits k y → HasDigits k x
  /-- No other decimal that rounds to the number with no more digits is nearer to it. -/
  nearest : ∀ y, Rounds n y → (∀ k, HasDigits k x → HasDigits k y) →
    |x - valueOf n| ≤ |y - valueOf n|

/-- The exact number that a decimal stands for. -/
def Digits.value (d : Digits) : ℚ := d.digits * 10 ^ d.exponent

/-! ### Grids -/

theorem HasDigits.mono {k l : Nat} {x : ℚ} (h : HasDigits k x) (hkl : k ≤ l) : HasDigits l x := by
  obtain ⟨c, j, hc, rfl⟩ := h
  exact ⟨c, j, Nat.lt_of_lt_of_le hc (Nat.pow_le_pow_right (by decide) hkl), rfl⟩

/-- The smallest number of one digit more is a power of ten. -/
theorem hasDigits_of_le {k d : Nat} (hk : 1 ≤ k) (hd : d ≤ 10 ^ k) (g : ℤ) :
    HasDigits k (d * 10 ^ g) := by
  rcases Nat.lt_or_eq_of_le hd with hlt | rfl
  · exact ⟨d, g, hlt, rfl⟩
  · refine ⟨1, k + g, Nat.one_lt_pow (Nat.pos_iff_ne_zero.mp hk) (by decide), ?_⟩
    rw [zpow_add₀ (by norm_num), zpow_natCast]
    push_cast
    ring

/-- A point of a grid is a point of every finer grid. -/
theorem exists_finer (c : Nat) {g j : ℤ} (h : g ≤ j) :
    ∃ c' : Nat, (c : ℚ) * 10 ^ j = c' * 10 ^ g := by
  refine ⟨c * 10 ^ (j - g).toNat, ?_⟩
  have hsplit : j = ((j - g).toNat : ℤ) + g := by omega
  conv_lhs => rw [hsplit, zpow_add₀ (by norm_num), zpow_natCast]
  push_cast
  ring

theorem zpow_mono {i j : ℤ} (h : i ≤ j) : (10 : ℚ) ^ i ≤ 10 ^ j :=
  zpow_le_zpow_right₀ (by norm_num) h

/-- Few digits on a fine grid make a small number. -/
theorem lt_zpow {k c : Nat} {g j : ℤ} (hc : c < 10 ^ k) (hj : j ≤ g) :
    (c : ℚ) * 10 ^ j < 10 ^ (k + g) := by
  have hcast : (c : ℚ) < 10 ^ k := by exact_mod_cast hc
  calc (c : ℚ) * 10 ^ j < 10 ^ k * 10 ^ j := mul_lt_mul_of_pos_right hcast (by positivity)
    _ ≤ 10 ^ k * 10 ^ g := mul_le_mul_of_nonneg_left (zpow_mono hj) (by positivity)
    _ = 10 ^ (k + g) := by rw [zpow_add₀ (by norm_num), zpow_natCast]

namespace Binary

variable {b : Binary} {g : ℤ} {d : Nat}

/-- The point of a grid at the number or next below it. -/
def floorOn (b : Binary) (g : ℤ) : Nat := b.quarters g (4 * b.m) / b.scale g

theorem value_eq_cast (b : Binary) : b.value = ((4 * b.m : ℕ) : ℚ) * 2 ^ (b.q - 2) := by
  rw [value_eq_quarters]
  push_cast
  rfl

theorem floorOn_le (b : Binary) (g : ℤ) : (b.floorOn g : ℚ) * 10 ^ g ≤ b.value := by
  rw [value_eq_cast, ← le_quarters_iff]
  exact Nat.div_mul_le_self _ _

theorem lt_floorOn (b : Binary) (g : ℤ) : b.value < (b.floorOn g + 1 : ℕ) * 10 ^ g := by
  rw [value_eq_cast, ← not_le, ← le_quarters_iff, not_le]
  exact (Nat.div_lt_iff_lt_mul (b.scale_pos g)).mp (Nat.lt_succ_self _)

/-- Every other point of a grid lies behind one of the two next to the number. -/
theorem le_floorOn_or (b : Binary) (g : ℤ) (c : Nat) :
    (c : ℚ) * 10 ^ g ≤ b.floorOn g * 10 ^ g ∨
      ((b.floorOn g + 1 : ℕ) : ℚ) * 10 ^ g ≤ c * 10 ^ g := by
  have hgrid : (0 : ℚ) ≤ 10 ^ g := by positivity
  rcases Nat.lt_or_ge (b.floorOn g) c with hlt | hge
  · exact Or.inr (mul_le_mul_of_nonneg_right (Nat.cast_le.mpr hlt) hgrid)
  · exact Or.inl (mul_le_mul_of_nonneg_right (Nat.cast_le.mpr hge) hgrid)

/-- If a grid has a point in the interval, it has one next to the number. -/
theorem admits_of_admits (hpos : 1 ≤ b.m) {c : Nat} (hc : b.Admits (c * 10 ^ g)) :
    b.admits g (b.floorOn g) = true ∨ b.admits g (b.floorOn g + 1) = true := by
  rw [admits_iff hpos, admits_iff hpos]
  rcases b.le_floorOn_or g c with hle | hge
  · exact Or.inl (hc.of_ge hle (b.floorOn_le g))
  · exact Or.inr (hc.of_le (b.lt_floorOn g).le hge)

/-- Twice the number against the middle between two points. -/
theorem two_mul_quarters (b : Binary) (g : ℤ) (d : Nat) :
    (2 * b.quarters g (4 * b.m) ≤ (2 * d + 1) * b.scale g ↔
        2 * b.value ≤ (2 * d + 1 : ℕ) * 10 ^ g) ∧
      ((2 * d + 1) * b.scale g ≤ 2 * b.quarters g (4 * b.m) ↔
        (2 * d + 1 : ℕ) * 10 ^ g ≤ 2 * b.value) := by
  have hdouble : 2 * b.quarters g (4 * b.m) = b.quarters g (2 * (4 * b.m)) := by
    rw [quarters, quarters]
    ring
  have hvalue : 2 * b.value = ((2 * (4 * b.m) : ℕ) : ℚ) * 2 ^ (b.q - 2) := by
    rw [value_eq_cast]
    push_cast
    ring
  rw [hdouble, hvalue, quarters_le_iff, le_quarters_iff]
  exact ⟨Iff.rfl, Iff.rfl⟩

/-- Where the point below is taken, it is not the farther one, and so for the point above. -/
theorem onGrid_both (ha : b.admits g (b.floorOn g) = true)
    (ha' : b.admits g (b.floorOn g + 1) = true) :
    (b.onGrid g = some (b.floorOn g) ∧ 2 * b.value ≤ (2 * b.floorOn g + 1 : ℕ) * 10 ^ g) ∨
      (b.onGrid g = some (b.floorOn g + 1) ∧
        (2 * b.floorOn g + 1 : ℕ) * 10 ^ g ≤ 2 * b.value) := by
  obtain ⟨hbelow, habove⟩ := b.two_mul_quarters g (b.floorOn g)
  rw [← hbelow, ← habove]
  have hle : b.floorOn g * b.scale g ≤ b.quarters g (4 * b.m) := Nat.div_mul_le_self _ _
  have hlt : b.quarters g (4 * b.m) < (b.floorOn g + 1) * b.scale g :=
    (Nat.div_lt_iff_lt_mul (b.scale_pos g)).mp (Nat.lt_succ_self _)
  rw [onGrid, ← floorOn]
  simp only [ha, ha']
  rw [Nat.add_mul, Nat.one_mul] at hlt ⊢
  rw [Nat.add_mul, Nat.one_mul, Nat.mul_assoc]
  generalize b.floorOn g * b.scale g = below at hle hlt ⊢
  split
  · exact Or.inl ⟨rfl, by omega⟩
  · split
    · exact Or.inr ⟨rfl, by omega⟩
    · split
      · exact Or.inl ⟨rfl, by omega⟩
      · exact Or.inr ⟨rfl, by omega⟩

/-- The point below is the nearest one that is admitted, if none above is nearer. -/
theorem abs_floorOn_le
    (hfar : ∀ c : Nat, b.Admits (c * 10 ^ g) → (b.floorOn g + 1 : ℕ) * 10 ^ g ≤ (c : ℚ) * 10 ^ g →
      b.value - b.floorOn g * 10 ^ g ≤ c * 10 ^ g - b.value)
    (c : Nat) (hc : b.Admits (c * 10 ^ g)) :
    |b.floorOn g * 10 ^ g - b.value| ≤ |c * 10 ^ g - b.value| := by
  have hfloor := b.floorOn_le g
  have hceil := b.lt_floorOn g
  rw [abs_sub_comm, abs_of_nonneg (sub_nonneg.mpr hfloor)]
  rcases b.le_floorOn_or g c with hle | hge
  · rw [abs_sub_comm, abs_of_nonneg (sub_nonneg.mpr (hle.trans hfloor))]
    linarith
  · rw [abs_of_nonneg (sub_nonneg.mpr (hceil.le.trans hge))]
    exact hfar c hc hge

/-- The point above is the nearest one that is admitted, if none below is nearer. -/
theorem abs_floorOn_succ_le
    (hfar : ∀ c : Nat, b.Admits (c * 10 ^ g) → (c : ℚ) * 10 ^ g ≤ b.floorOn g * 10 ^ g →
      (b.floorOn g + 1 : ℕ) * 10 ^ g - b.value ≤ b.value - c * 10 ^ g)
    (c : Nat) (hc : b.Admits (c * 10 ^ g)) :
    |(b.floorOn g + 1 : ℕ) * 10 ^ g - b.value| ≤ |c * 10 ^ g - b.value| := by
  have hfloor := b.floorOn_le g
  have hceil := b.lt_floorOn g
  rw [abs_of_nonneg (sub_nonneg.mpr hceil.le)]
  rcases b.le_floorOn_or g c with hle | hge
  · rw [abs_sub_comm, abs_of_nonneg (sub_nonneg.mpr (hle.trans hfloor))]
    exact hfar c hc hle
  · rw [abs_of_nonneg (sub_nonneg.mpr (hceil.le.trans hge))]
    linarith

/-- **What is found on a grid rounds to the number**, and is the nearest such point of the grid. -/
theorem onGrid_eq_some (hpos : 1 ≤ b.m) (h : b.onGrid g = some d) :
    b.Admits (d * 10 ^ g) ∧ d ≤ b.floorOn g + 1 ∧
      ∀ c : Nat, b.Admits (c * 10 ^ g) → |d * 10 ^ g - b.value| ≤ |c * 10 ^ g - b.value| := by
  have hfloor := b.floorOn_le g
  have hceil := b.lt_floorOn g
  have hmiddle : ((2 * b.floorOn g + 1 : ℕ) : ℚ) * 10 ^ g
      = b.floorOn g * 10 ^ g + (b.floorOn g + 1 : ℕ) * 10 ^ g := by
    push_cast
    ring
  cases ha : b.admits g (b.floorOn g) with
  | true =>
      cases ha' : b.admits g (b.floorOn g + 1) with
      | true =>
          rcases onGrid_both ha ha' with ⟨hgrid, hnear⟩ | ⟨hgrid, hnear⟩
          · obtain rfl := Option.some.inj (h.symm.trans hgrid)
            refine ⟨(admits_iff hpos g _).mp ha, Nat.le_succ _, abs_floorOn_le ?_⟩
            intro c _ hge
            linarith
          · obtain rfl := Option.some.inj (h.symm.trans hgrid)
            refine ⟨(admits_iff hpos g _).mp ha', le_rfl, abs_floorOn_succ_le ?_⟩
            intro c _ hle
            linarith
      | false =>
          have hgrid : b.onGrid g = some (b.floorOn g) := by
            rw [onGrid, ← floorOn]
            simp only [ha, ha']
          obtain rfl := Option.some.inj (h.symm.trans hgrid)
          refine ⟨(admits_iff hpos g _).mp ha, Nat.le_succ _, abs_floorOn_le ?_⟩
          intro c hc hge
          -- Then the point above would be admitted, too.
          have hadmits := (admits_iff hpos g _).mpr (hc.of_le hceil.le hge)
          rw [ha'] at hadmits
          cases hadmits
  | false =>
      cases ha' : b.admits g (b.floorOn g + 1) with
      | true =>
          have hgrid : b.onGrid g = some (b.floorOn g + 1) := by
            rw [onGrid, ← floorOn]
            simp only [ha, ha']
          obtain rfl := Option.some.inj (h.symm.trans hgrid)
          refine ⟨(admits_iff hpos g _).mp ha', le_rfl, abs_floorOn_succ_le ?_⟩
          intro c hc hle
          have hadmits := (admits_iff hpos g _).mpr (hc.of_ge hle hfloor)
          rw [ha] at hadmits
          cases hadmits
      | false =>
          have hgrid : b.onGrid g = none := by
            rw [onGrid, ← floorOn]
            simp only [ha, ha']
          rw [hgrid] at h
          cases h

/-- Where nothing is found, no point of the grid rounds to the number. -/
theorem onGrid_eq_none (hpos : 1 ≤ b.m) (h : b.onGrid g = none) (c : Nat) :
    ¬ b.Admits (c * 10 ^ g) := by
  intro hc
  rw [onGrid, ← floorOn] at h
  rcases admits_of_admits hpos hc with ha | ha'
  · rw [ha] at h
    cases ha' : b.admits g (b.floorOn g + 1) <;> simp [ha'] at h
  · rw [ha'] at h
    cases ha : b.admits g (b.floorOn g) <;> simp [ha] at h

/-! ### The power of ten below a number -/

/-- The number of digits of a whole number. -/
theorem length_toDigits_bounds {t : Nat} (ht : 1 ≤ t) :
    10 ^ ((Nat.toDigits 10 t).length - 1) ≤ t ∧ t < 10 ^ (Nat.toDigits 10 t).length := by
  have hlength : 0 < (Nat.toDigits 10 t).length := Nat.length_toDigits_pos
  refine ⟨?_, (Nat.length_toDigits_le_iff (by decide) hlength).mp le_rfl⟩
  rcases Nat.eq_zero_or_pos ((Nat.toDigits 10 t).length - 1) with hzero | hpos
  · rw [hzero]
    exact ht
  · by_contra hlt
    have hle := (Nat.length_toDigits_le_iff (by decide) hpos).mpr (Nat.not_le.mp hlt)
    omega

/-- The largest whole number below the reciprocal of a fraction that is less than one. -/
theorem reciprocal_bounds {num den : Nat} (hnum : 0 < num) (hlt : num < den) :
    1 ≤ (den + num - 1) / num - 1 ∧ num * ((den + num - 1) / num - 1) < den ∧
      den ≤ num * ((den + num - 1) / num - 1 + 1) := by
  have htwo : 2 ≤ (den + num - 1) / num := (Nat.le_div_iff_mul_le hnum).mpr (by omega)
  have hdiv := Nat.div_add_mod (den + num - 1) num
  have hmod := Nat.mod_lt (den + num - 1) hnum
  obtain ⟨s, hs⟩ := Nat.exists_eq_add_of_le (Nat.le_of_lt htwo)
  rw [hs] at htwo hdiv ⊢
  rw [Nat.mul_add, Nat.mul_one] at hdiv
  rw [Nat.add_sub_cancel_left, Nat.mul_add, Nat.mul_one]
  omega

theorem value_eq_div (b : Binary) : b.value = (b.m * powNum 2 b.q : ℕ) / (powDen 2 b.q : ℕ) := by
  have hpower := zpow_eq_div (by decide : 0 < 2) b.q
  push_cast at hpower ⊢
  rw [value, hpower]
  ring

/-- A number lies between the power of ten of its leading digit and the next one. -/
theorem magnitude_bounds (hpos : 1 ≤ b.m) :
    10 ^ b.magnitude ≤ b.value ∧ b.value < 10 ^ (b.magnitude + 1) := by
  have hden : 0 < powDen 2 b.q := powDen_pos (by decide) _
  have hnum : 0 < b.m * powNum 2 b.q := Nat.mul_pos hpos (powNum_pos (by decide) _)
  have hdenq : (0 : ℚ) < (powDen 2 b.q : ℕ) := Nat.cast_pos.mpr hden
  rw [value_eq_div, magnitude, le_div_iff₀ hdenq, div_lt_iff₀ hdenq]
  generalize b.m * powNum 2 b.q = num at hnum ⊢
  generalize powDen 2 b.q = den at hden hdenq ⊢
  split
  · -- From one upwards, the whole part has as many digits as the magnitude says.
    rename_i hle
    obtain ⟨hlow, hhigh⟩ := length_toDigits_bounds (Nat.div_pos hle hden)
    have hlength : 0 < (Nat.toDigits 10 (num / den)).length := Nat.length_toDigits_pos
    generalize (Nat.toDigits 10 (num / den)).length = l at hlow hhigh hlength ⊢
    have hexponent : (l : ℤ) - 1 = ((l - 1 : ℕ) : ℤ) := by omega
    rw [sub_add_cancel, hexponent, zpow_natCast, zpow_natCast]
    constructor
    · have hfloor : 10 ^ (l - 1) * den ≤ num := (Nat.le_div_iff_mul_le hden).mp hlow
      exact_mod_cast hfloor
    · have hceil : num < 10 ^ l * den := (Nat.div_lt_iff_lt_mul hden).mp hhigh
      exact_mod_cast hceil
  · -- Below one, the reciprocal has.
    rename_i hnot
    obtain ⟨hs, hmul⟩ := reciprocal_bounds hnum (Nat.not_le.mp hnot)
    generalize (den + num - 1) / num - 1 = s at hmul hs ⊢
    obtain ⟨hlow, hhigh⟩ := length_toDigits_bounds hs
    have hlength : 0 < (Nat.toDigits 10 s).length := Nat.length_toDigits_pos
    generalize (Nat.toDigits 10 s).length = l at hlow hhigh hlength ⊢
    have hexponent : -(l : ℤ) + 1 = -((l - 1 : ℕ) : ℤ) := by omega
    rw [hexponent, zpow_neg, zpow_neg, zpow_natCast, zpow_natCast, inv_mul_le_iff₀ (by positivity),
      lt_inv_mul_iff₀ (by positivity)]
    constructor
    · have hle : den ≤ 10 ^ l * num := by
        rw [Nat.mul_comm]
        exact hmul.2.trans (Nat.mul_le_mul_left num hhigh)
      exact_mod_cast hle
    · have hlt : 10 ^ (l - 1) * num < den := by
        rw [Nat.mul_comm]
        exact Nat.lt_of_le_of_lt (Nat.mul_le_mul_left num hlow) hmul.1
      exact_mod_cast hlt

/-- **Seventeen digits are enough.** -/
theorem exists_onGrid {n : Nat} (h : b.IsOf n) : ∃ d, b.onGrid (b.magnitude - 16) = some d := by
  cases hgrid : b.onGrid (b.magnitude - 16) with
  | some d => exact ⟨d, rfl⟩
  | none =>
      exfalso
      -- The two points next to the number are outside, so the interval is not wider than the grid.
      have hlow := le_low_of_not_admits (onGrid_eq_none h.pos hgrid (b.floorOn _)) (b.floorOn_le _)
      have hhigh := high_le_of_not_admits (onGrid_eq_none h.pos hgrid (b.floorOn _ + 1))
        (b.lt_floorOn _).le
      push_cast at hhigh
      have hpower := (magnitude_bounds h.pos).1
      have hgrid : (10 : ℚ) ^ (b.magnitude - 16) = 10 ^ b.magnitude / 10 ^ 16 := by
        rw [zpow_sub₀ (by norm_num)]
        rfl
      rw [value_eq_quarters] at hpower
      rw [low] at hlow
      rw [high] at hhigh
      have hunit : (0 : ℚ) < 2 ^ (b.q - 2) := by positivity
      have hlt : (b.m : ℚ) < 2 ^ 53 := by exact_mod_cast h.lt
      generalize (2 : ℚ) ^ (b.q - 2) = t at *
      generalize (10 : ℚ) ^ (b.magnitude - 16) = u at *
      generalize (10 : ℚ) ^ b.magnitude = p at *
      have hsmall : (b.m : ℚ) * t < 2 ^ 53 * t := mul_lt_mul_of_pos_right hlt hunit
      split at hlow
      · rename_i hnarrow
        have hm : (b.m : ℚ) = 2 ^ 52 := by exact_mod_cast h.narrow hnarrow
        rw [hm] at hpower hlow hhigh
        nlinarith
      · nlinarith

/-! ### The search -/

/-- What is found is on the first grid with a hit. -/
theorem search_eq {fuel n : Nat}
    (h : ∃ i < fuel, (b.onGrid (b.magnitude - (n + i : ℕ) + 1)).isSome = true) :
    ∃ k d, n ≤ k ∧ k < n + fuel ∧ b.search fuel n = ⟨d, b.magnitude - k + 1⟩ ∧
      b.onGrid (b.magnitude - k + 1) = some d ∧
      ∀ i, n ≤ i → i < k → b.onGrid (b.magnitude - i + 1) = none := by
  induction fuel generalizing n with
  | zero =>
      obtain ⟨i, hi, -⟩ := h
      exact absurd hi (Nat.not_lt_zero i)
  | succ fuel ih =>
      rw [search]
      cases hgrid : b.onGrid (b.magnitude - n + 1) with
      | some d =>
          exact ⟨n, d, le_rfl, by omega, rfl, hgrid, fun i hi hlt => absurd hlt (by omega)⟩
      | none =>
          have hlater : ∃ i < fuel,
              (b.onGrid (b.magnitude - (n + 1 + i : ℕ) + 1)).isSome = true := by
            obtain ⟨i, hi, hsome⟩ := h
            cases i with
            | zero =>
                rw [Nat.add_zero, hgrid] at hsome
                cases hsome
            | succ i =>
                refine ⟨i, by omega, ?_⟩
                rwa [Nat.add_right_comm]
          obtain ⟨k, d, hle, hlt, hsearch, hfound, hnone⟩ := ih hlater
          refine ⟨k, d, by omega, by omega, hsearch, hfound, fun i hi hik => ?_⟩
          rcases Nat.lt_or_eq_of_le hi with hmore | rfl
          · exact hnone i hmore hik
          · exact hgrid

/-- The first hit is on one of seventeen grids. -/
theorem shortest_eq {n : Nat} (h : b.IsOf n) :
    ∃ k d : Nat, 1 ≤ k ∧ b.shortest = ⟨d, b.magnitude - k + 1⟩ ∧
      b.onGrid (b.magnitude - k + 1) = some d ∧
      ∀ i : Nat, 1 ≤ i → i < k → b.onGrid (b.magnitude - i + 1) = none := by
  obtain ⟨d, hd⟩ := exists_onGrid h
  have hlast : ∃ i < 17, (b.onGrid (b.magnitude - (1 + i : ℕ) + 1)).isSome = true := by
    refine ⟨16, by decide, ?_⟩
    have hgrid : b.magnitude - ((1 + 16 : ℕ) : ℤ) + 1 = b.magnitude - 16 := by omega
    rw [hgrid, hd]
    rfl
  obtain ⟨k, d, hk, -, hsearch, hfound, hnone⟩ := search_eq hlast
  exact ⟨k, d, hk, hsearch, hfound, hnone⟩

/-- The power of ten below the number is a point of every grid that is searched. -/
theorem exists_zpow_magnitude (b : Binary) {k : Nat} (hk : 1 ≤ k) :
    ∃ c : Nat, (10 : ℚ) ^ b.magnitude = c * 10 ^ (b.magnitude - k + 1) := by
  obtain ⟨c, hc⟩ := exists_finer 1 (by omega : b.magnitude - k + 1 ≤ b.magnitude)
  rw [Nat.cast_one, one_mul] at hc
  exact ⟨c, hc⟩

/-- What is found on the grid of `k` digits has no more: the number is below the next power of
ten. -/
theorem hasDigits_onGrid (hpos : 1 ≤ b.m) {k : Nat} (hk : 1 ≤ k)
    (hd : d ≤ b.floorOn (b.magnitude - k + 1) + 1) :
    HasDigits k (d * 10 ^ (b.magnitude - k + 1)) := by
  refine hasDigits_of_le hk (hd.trans ?_) _
  have hlt : (b.floorOn (b.magnitude - k + 1) : ℚ) * 10 ^ (b.magnitude - k + 1)
      < (10 ^ k : ℕ) * 10 ^ (b.magnitude - k + 1) := by
    refine ((b.floorOn_le _).trans_lt (magnitude_bounds hpos).2).trans_eq ?_
    rw [Nat.cast_pow, Nat.cast_ofNat, ← zpow_natCast, ← zpow_add₀ (by norm_num)]
    congr 1
    ring
  exact Nat.cast_lt.mp (lt_of_mul_lt_mul_right hlt (by positivity))

/-- **An admitted decimal of `k` digits is on the grid of `k` digits**, or lies at the power of ten
below the number or beyond it. -/
theorem on_grid_or_le {k c : Nat} {j : ℤ} (hc : c < 10 ^ k) :
    (∃ c' : Nat, (c : ℚ) * 10 ^ j = c' * 10 ^ (b.magnitude - k + 1)) ∨
      (c : ℚ) * 10 ^ j ≤ 10 ^ b.magnitude := by
  rcases le_or_gt (b.magnitude - k + 1) j with hj | hj
  · exact Or.inl (exists_finer c hj)
  · refine Or.inr ((lt_zpow hc (g := b.magnitude - k) (by omega)).le.trans (zpow_mono ?_))
    omega

/-- A grid without a hit has no digits to offer. -/
theorem not_admits_of_hasDigits (hpos : 1 ≤ b.m) {k : Nat} (hk : 1 ≤ k) {y : ℚ}
    (hnone : b.onGrid (b.magnitude - k + 1) = none) (hy : HasDigits k y) : ¬ b.Admits y := by
  obtain ⟨c, j, hc, rfl⟩ := hy
  intro hy
  rcases on_grid_or_le (b := b) (j := j) hc with ⟨c', hc'⟩ | hle
  · exact onGrid_eq_none hpos hnone c' (hc' ▸ hy)
  · -- Then the power of ten is admitted, too.
    obtain ⟨c', hc'⟩ := b.exists_zpow_magnitude hk
    exact onGrid_eq_none hpos hnone c' (hc' ▸ hy.of_ge hle (magnitude_bounds hpos).1)

/-- A decimal without digits is zero, which no number admits. -/
theorem not_admits_of_hasDigits_zero (hpos : 1 ≤ b.m) {y : ℚ} (hy : HasDigits 0 y) :
    ¬ b.Admits y := by
  obtain ⟨c, j, hc, rfl⟩ := hy
  obtain rfl : c = 0 := by omega
  rw [Nat.cast_zero, zero_mul]
  exact fun hadmits => lt_irrefl 0 (hadmits.pos hpos)

/-- **The decimal that is found is the shortest one.** -/
theorem isShortest_shortest {n : Nat} (h : b.IsOf n) : IsShortest n b.shortest.value := by
  obtain ⟨k, d, hk, hshortest, hfound, hnone⟩ := shortest_eq h
  obtain ⟨hadmits, hd, hnearest⟩ := onGrid_eq_some h.pos hfound
  have hdigits := hasDigits_onGrid h.pos hk hd
  have hpower := (magnitude_bounds h.pos).1
  rw [hshortest, Digits.value]
  refine ⟨h.rounds_iff.mpr hadmits, ?_, ?_⟩
  · intro k' y hy hk'
    have hy := h.rounds_iff.mp hy
    by_cases hkk : k ≤ k'
    · exact hdigits.mono hkk
    · exfalso
      rcases Nat.eq_zero_or_pos k' with rfl | hpos
      · exact not_admits_of_hasDigits_zero h.pos hk' hy
      · exact not_admits_of_hasDigits h.pos hpos (hnone k' hpos (Nat.not_le.mp hkk)) hk' hy
  · intro y hy hfewer
    obtain ⟨c, j, hc, rfl⟩ := hfewer k hdigits
    have hy := h.rounds_iff.mp hy
    rw [h.value_eq]
    rcases on_grid_or_le (b := b) (j := j) hc with ⟨c', hc'⟩ | hle
    · rw [hc'] at hy ⊢
      exact hnearest c' hy
    · -- The power of ten is nearer to the number than what lies beyond it.
      obtain ⟨c', hc'⟩ := b.exists_zpow_magnitude hk
      refine (hnearest c' (hc' ▸ hy.of_ge hle hpower)).trans ?_
      rw [← hc', abs_sub_comm, abs_of_nonneg (sub_nonneg.mpr hpower), abs_sub_comm,
        abs_of_nonneg (sub_nonneg.mpr (hle.trans hpower))]
      linarith

end Binary

end ResponseExport.Decimal
