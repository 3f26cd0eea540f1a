import ResponseExport.Proofs.Text.Trim
import ResponseExport.Proofs.Time.Order

/-!
# `ResponseExport.Proofs.Time.Relaxed`: times in JSON come back

A job in JSON shows its time by `Instant.text`, with no, three, six or nine digits behind
the point, and whoever reads it uses the relaxed form, `Instant.readRelaxed`. Nothing is
lost on the way, not even a nanosecond (`readRelaxed_text`).

The relaxed form passes over blanks and takes short numbers, so it has to be seen that it
finds neither: every part is written in full width and begins with a digit
(`readYear_padded`, `readLoose_padded`). And as many digits are written behind the point
as the nanoseconds need (`readFraction_fractionText`).
-/

set_option autoImplicit false

namespace ResponseExport.Time

/-! ### Parts -/

/-- A number begins with a digit. -/
theorem padded_eq_cons {width : Nat} (hpositive : 0 < width) (n : Nat) :
    ∃ c cs, padded width n = c :: cs ∧ '0' ≤ c ∧ c ≤ '9' := by
  have hne : padded width n ≠ [] := by
    intro hempty
    have hle := le_length_padded width n
    rw [hempty] at hle
    exact absurd hle (Nat.not_le.mpr hpositive)
  obtain ⟨c, cs, hcs⟩ := List.exists_cons_of_ne_nil hne
  have hmem : c ∈ padded width n := by
    rw [hcs]
    exact List.mem_cons_self
  have hdigit := isDigit_of_mem_padded hmem
  rw [isDigit, Bool.and_eq_true, decide_eq_true_iff, decide_eq_true_iff] at hdigit
  exact ⟨c, cs, hcs, hdigit.1, hdigit.2⟩

/-- No digit is blank, so nothing is passed over in front of a number. -/
theorem skipBlanks_padded {width : Nat} (hpositive : 0 < width) (n : Nat) (rest : List Char) :
    skipBlanks (padded width n ++ rest) = padded width n ++ rest := by
  obtain ⟨c, cs, hcs, hlow, hhigh⟩ := padded_eq_cons hpositive n
  rw [hcs]
  exact Text.dropLeadingBlanks_of_head (Text.isBlank_of_digit hlow hhigh) (cs ++ rest)

/-- A year of four digits is read back. -/
theorem readYear_padded {n : Nat} (hn : n < 10 ^ 4) (rest : List Char) :
    readYear (padded 4 n ++ rest) = .ok ((n : Int), rest) := by
  have hnumber : readNumber 1 (some 4) (padded 4 n ++ rest) = .ok (n, rest) :=
    readNumber_padded (by decide) (Nat.le_refl 4) (by decide) (by decide) hn (Or.inl rfl)
  -- The sign of a year is no digit.
  obtain ⟨c, cs, hcs, hlow, -⟩ := padded_eq_cons (show 0 < 4 by decide) n
  rw [readYear, skipBlanks_padded (by decide)]
  split
  · rename_i heq
    rw [hcs] at heq
    obtain rfl := (List.cons.inj heq).1
    exact absurd hlow (by decide)
  · rename_i heq
    rw [hcs] at heq
    obtain rfl := (List.cons.inj heq).1
    exact absurd hlow (by decide)
  · rw [hnumber]
    rfl

/-- A number of two digits is read back if it lies within its bounds. -/
theorem readLoose_padded {low high n : Nat} (hlow : low ≤ n) (hhigh : n ≤ high) (hn : n < 10 ^ 2)
    (rest : List Char) : readLoose low high (padded 2 n ++ rest) = .ok (n, rest) := by
  rw [readLoose, skipBlanks_padded (by decide),
    readNumber_padded (by decide) (Nat.le_refl 2) (by decide) (by decide) hn (Or.inl rfl),
    readWithin, if_pos ⟨hlow, hhigh⟩]

/-- The fraction of a second is read back to the nanosecond. -/
theorem readFraction_fractionText {nanos : Nat} (hn : nanos < secondNanos) :
    readFraction (fractionText nanos ++ ['Z']) = .ok (nanos, ['Z']) := by
  rw [secondNanos] at hn
  rw [fractionText, milliNanos, microNanos]
  by_cases hzero : nanos = 0
  · rw [if_pos hzero, hzero]
    rfl
  rw [if_neg hzero]
  by_cases hmillis : nanos % 1000000 = 0
  · have hback : nanos / 1000000 * Nat.pow 10 (9 - 3) = nanos :=
      Nat.div_mul_cancel (Nat.dvd_of_mod_eq_zero hmillis)
    rw [if_pos hmillis, List.cons_append,
      readFraction_padded (by decide) (by decide) (by omega), hback]
  rw [if_neg hmillis]
  by_cases hmicros : nanos % 1000 = 0
  · have hback : nanos / 1000 * Nat.pow 10 (9 - 6) = nanos :=
      Nat.div_mul_cancel (Nat.dvd_of_mod_eq_zero hmicros)
    rw [if_pos hmicros, List.cons_append,
      readFraction_padded (by decide) (by decide) (by omega), hback]
  · rw [if_neg hmicros, List.cons_append,
      readFraction_padded (by decide) (by decide) (by omega)]
    exact congrArg (fun n => Except.ok (n, ['Z'])) (Nat.mul_one nanos)

/-! ### Whole texts -/

/-- The signs between the parts are not blank, so they are found where they stand. -/
theorem readChar_sign {sign : Char} (h : Text.isBlank sign = false) (rest : List Char) :
    readChar sign (skipBlanks (sign :: rest)) = .ok rest := by
  rw [skipBlanks, Text.dropLeadingBlanks_of_head h, readChar, if_pos rfl]

/-- The text of a clock is read as the instant at which it shows this. -/
theorem readRelaxed_clockText {c : Clock} (hc : c.IsShort) (hnanos : c.nanos < secondNanos) :
    Instant.readRelaxed (String.ofList (c.text ++ fractionText c.nanos ++ ['Z']))
      = instantOf c.date.year c.date.month c.date.day c.hour c.minute c.second c.nanos 0 := by
  have hyear : yearText c.date.year = padded 4 c.date.year.toNat :=
    if_pos ⟨hc.year_nonneg, hc.year_le⟩
  have hyearBound := hc.year_le
  have hday : c.date.day ≤ 31 := Nat.le_trans hc.date.day_le (monthLength_le _ _)
  have hmonth := hc.date.month_le
  have hhour := hc.hour_le
  have hminute := hc.minute_le
  have hsecond := hc.second_le
  have htext : (String.ofList (c.text ++ fractionText c.nanos ++ ['Z'])).toList
      = padded 4 c.date.year.toNat ++ '-' :: (padded 2 c.date.month ++ '-' ::
        (padded 2 c.date.day ++ 'T' :: (padded 2 c.hour ++ ':' :: (padded 2 c.minute ++ ':' ::
          (padded 2 c.second ++ (fractionText c.nanos ++ ['Z'])))))) := by
    simp [Clock.text, hyear]
  have hblank : Text.isBlank '-' = false ∧ Text.isBlank ':' = false := by decide
  simp only [Instant.readRelaxed, bind, Except.bind]
  rw [htext, readYear_padded (by omega)]
  dsimp only
  rw [readChar_sign hblank.1]
  dsimp only
  rw [readLoose_padded hc.date.one_le_month hmonth (by omega)]
  dsimp only
  rw [readChar_sign hblank.1]
  dsimp only
  rw [readLoose_padded hc.date.one_le_day hday (by omega)]
  dsimp only [readSeparator]
  rw [if_pos (by simp)]
  dsimp only
  rw [readLoose_padded (Nat.zero_le _) hhour (by omega)]
  dsimp only
  rw [readChar_sign hblank.2]
  dsimp only
  rw [readLoose_padded (Nat.zero_le _) hminute (by omega)]
  dsimp only
  rw [readChar_sign hblank.2]
  dsimp only
  rw [readLoose_padded (Nat.zero_le _) hsecond (by omega)]
  dsimp only
  rw [readFraction_fractionText hnanos, Int.toNat_of_nonneg hc.year_nonneg]
  rfl

/-- A clock shows less than a second of nanoseconds, also in a leap second. -/
theorem nanos_clock_lt {t : Instant} (hnanos : t.nanos < 2 * secondNanos) :
    t.clock.nanos < secondNanos := by
  rw [Instant.clock]
  dsimp only
  rw [secondNanos] at *
  split <;> omega

/-- An instant is the one at which a clock shows what it shows then. -/
theorem ofClock_clock {t : Instant} (ht : t.IsReading) : Instant.ofClock t.clock 0 = t := by
  have hnanos :
      t.clock.nanos + (if secondNanos ≤ t.nanos then 1 else 0) * secondNanos = t.nanos := by
    rw [Instant.clock]
    dsimp only
    rw [secondNanos]
    split <;> omega
  have hsame := ofClock_with_nanos ht t.clock.nanos
  rwa [hnanos] at hsame

/-- **Times that are written in JSON are read back as they are**, leap seconds included. -/
theorem readRelaxed_text {t : Instant} (ht : t.IsReading) :
    Instant.readRelaxed t.text = .ok t := by
  have hsupported : t.isSupported = true := by
    rw [Instant.isSupported, ← date_clock]
    exact isSupportedYear_of_short ht.year_nonneg ht.year_le
  rw [Instant.text, readRelaxed_clockText ht.isShort (nanos_clock_lt ht.nanos_lt), instantOf,
    make?_clock ht.hasShortYear]
  dsimp only
  rw [if_neg (by decide), ofClock_clock ht, if_pos hsupported]

end ResponseExport.Time
