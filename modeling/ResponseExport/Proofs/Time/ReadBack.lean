import Mathlib.Algebra.Group.Nat.Defs
import ResponseExport.Time.Reading

/-!
# `ResponseExport.Proofs.Time.ReadBack`: written times can be read

The table of jobs stores times as texts, written by `Instant.millisText`, and every
row that is read has its time read back by `Instant.read`. The two have to agree,
or a job could be stored that nobody can look at any more.

`read_millisText` says that they do, for every instant whose year has at most four
digits: what is read is what a clock shows at the instant, to the millisecond. Two
things have to be known. Numbers are written in fixed widths, so each is read back
as it is (`readFixed_padded`). And `Date.ofDays` only comes to dates that exist
(`make?_ofDays`), since the strict form refuses all others. The latter depends on
the last day of a leap year being the only one behind 365 others (`yearDay_lt`).
-/

set_option autoImplicit false

namespace ResponseExport.Time

/-! ### Numbers of fixed width -/

theorem isDigit_eq (c : Char) : isDigit c = c.isDigit := by
  simp [isDigit, Char.isDigit, Char.le_def, UInt32.le_iff_toNat_le]

theorem isDigit_of_mem_padded {width n : Nat} {c : Char} (hc : c ∈ padded width n) :
    isDigit c = true := by
  rw [padded, List.mem_append] at hc
  rw [isDigit_eq]
  rcases hc with hc | hc
  · rw [(List.mem_replicate.mp hc).2]
    rfl
  · exact Nat.isDigit_of_mem_toDigits (by decide) (by decide) hc

theorem le_length_padded (width n : Nat) : width ≤ (padded width n).length := by
  rw [padded, List.length_append, List.length_replicate]
  omega

/-- A number that fits into its width fills it. -/
theorem length_padded {width n : Nat} (hwidth : 0 < width) (hn : n < 10 ^ width) :
    (padded width n).length = width := by
  have hle := (Nat.length_toDigits_le_iff (by decide) hwidth).mpr hn
  rw [padded, List.length_append, List.length_replicate]
  omega

theorem digitsValue_eq (cs : List Char) : digitsValue cs = Nat.ofDigitChars 10 cs 0 := by
  rw [digitsValue, Nat.ofDigitChars]
  simp only [Nat.mul_comm 10]
  rfl

theorem digitsValue_padded (width n : Nat) : digitsValue (padded width n) = n := by
  rw [digitsValue_eq, padded, Nat.ofDigitChars_append, Nat.ofDigitChars_replicate_zero,
    Nat.mul_zero, Nat.ofDigitChars_ten_toDigits]

/-- A number of fixed width is read back, and what follows it is left. -/
theorem readFixed_padded {width n : Nat} (hwidth : 0 < width) (hn : n < 10 ^ width)
    (rest : List Char) : readFixed width (padded width n ++ rest) = .ok (n, rest) := by
  have hlength := length_padded hwidth hn
  have htake : (padded width n ++ rest).take width = padded width n :=
    List.take_left' hlength
  have hdrop : (padded width n ++ rest).drop width = rest := List.drop_left' hlength
  have hall : (padded width n).all isDigit = true :=
    List.all_eq_true.mpr fun c hc => isDigit_of_mem_padded hc
  rw [readFixed, htake, hdrop, digitsValue_padded, if_pos ⟨hlength, hall⟩]

theorem length_le_byteLength (cs : List Char) : cs.length ≤ byteLength cs := by
  induction cs with
  | nil => exact Nat.le_refl _
  | cons c cs ih =>
      have hpos := c.utf8Size_pos
      show cs.length + 1 ≤ c.utf8Size + byteLength cs
      omega

/-- A number of fixed width is read back by itself if no more digits may follow, or none do. -/
theorem readNumber_padded {low high width n : Nat} (hlow : low ≤ width) (hhigh : width ≤ high)
    (hpositive : 0 < width) (hwidth : width ≤ 18) (hn : n < 10 ^ width) {rest : List Char}
    (hrest : width = high ∨ ∀ c ∈ rest.head?, isDigit c = false) :
    readNumber low (some high) (padded width n ++ rest) = .ok (n, rest) := by
  have hlength := length_padded hpositive hn
  have hbytes : ¬ byteLength (padded width n ++ rest) < low := by
    have hle := length_le_byteLength (padded width n ++ rest)
    rw [List.length_append, hlength] at hle
    omega
  have hbehind : (rest.take (high - width)).takeWhile isDigit = [] := by
    rcases hrest with heq | hrest
    · rw [heq, Nat.sub_self]
      rfl
    · cases rest with
      | nil => rw [List.take_nil, List.takeWhile_nil]
      | cons c rest =>
          cases high - width with
          | zero => rfl
          | succ k =>
              rw [List.take_succ_cons, List.takeWhile_cons_of_neg]
              rw [hrest c rfl]
              decide
  have hrun : ((padded width n ++ rest).take high).takeWhile isDigit = padded width n := by
    rw [List.take_append, List.take_of_length_le (by rw [hlength]; exact hhigh),
      List.takeWhile_append_of_pos fun c hc => isDigit_of_mem_padded hc, hlength, hbehind,
      List.append_nil]
  have hsmall : ¬ numberLimit ≤ n := by
    have hpow : 10 ^ width ≤ 10 ^ 18 := Nat.pow_le_pow_right (by decide) hwidth
    rw [numberLimit]
    omega
  rw [readNumber, if_neg hbytes]
  dsimp only
  rw [hrun, hlength, if_neg (Nat.not_lt.mpr hlow), digitsValue_padded, if_neg hsmall,
    List.drop_left' hlength]

/-- The digits of a fraction count as many nanoseconds as their number says. -/
theorem readFraction_padded {width n : Nat} (hpositive : 0 < width) (hwidth : width ≤ 9)
    (hn : n < 10 ^ width) :
    readFraction ('.' :: (padded width n ++ ['Z'])) = .ok (n * Nat.pow 10 (9 - width), ['Z']) := by
  have hzone : ∀ c ∈ ['Z'].head?, isDigit c = false := by
    intro c hc
    obtain rfl := Option.some.inj hc
    rfl
  rw [readFraction, readNumber_padded hpositive hwidth hpositive (by omega) hn (Or.inr hzone)]
  dsimp only
  rw [List.length_append, length_padded hpositive hn, Nat.add_sub_cancel]
  rfl

/-! ### Dates that exist -/

/-- How many days there are in this month and the `left` months behind it. -/
def daysFrom (leap : Bool) : (left month : Nat) → Nat
  | 0, month => monthLength leap month
  | left + 1, month => monthLength leap month + daysFrom leap left (month + 1)

/-- A day that lies in one of these months has a place in it. -/
theorem monthAndDay_cases {leap : Bool} {left month day : Nat}
    (hday : day < daysFrom leap left month) :
    month ≤ (monthAndDay leap left month day).1 ∧
      (monthAndDay leap left month day).1 ≤ month + left ∧
      1 ≤ (monthAndDay leap left month day).2 ∧
      (monthAndDay leap left month day).2
        ≤ monthLength leap (monthAndDay leap left month day).1 := by
  induction left generalizing month day with
  | zero => exact ⟨Nat.le_refl _, Nat.le_refl _, Nat.le_add_left 1 day, hday⟩
  | succ left ih =>
      rw [daysFrom] at hday
      rw [monthAndDay]
      by_cases hhere : day < monthLength leap month
      · rw [if_pos hhere]
        exact ⟨Nat.le_refl _, Nat.le_add_right _ _, Nat.le_add_left 1 day, hhere⟩
      · rw [if_neg hhere]
        have hleft : day - monthLength leap month < daysFrom leap left (month + 1) := by omega
        obtain ⟨hfrom, hto, hone, hlast⟩ := ih hleft
        exact ⟨by omega, by omega, hone, hlast⟩

/-- The days that are left of a cycle of 400 years when whole centuries, cycles of four years
and years are taken off are no more than the year has: 366 of them are only left when the
year is the fourth one, and not of a century unless that is the fourth one too. -/
theorem yearDay_lt (cycle : Int) {days century quad single : Nat} (hdays : days < 146097)
    (hcentury : century = min (days / 36524) 3)
    (hquad : quad = (days - century * 36524) / 1461)
    (hsingle : single = min ((days - century * 36524 - quad * 1461) / 365) 3) :
    days - century * 36524 - quad * 1461 - single * 365
      < daysFrom (isLeapYear (400 * cycle + (100 * century + 4 * quad + single + 1 : Nat))) 11 1 := by
  have hlast : days - century * 36524 - quad * 1461 - single * 365 < 366 := by omega
  by_cases hleap : isLeapYear (400 * cycle + (100 * century + 4 * quad + single + 1 : Nat)) = true
  · rw [hleap]
    exact hlast
  · rw [Bool.eq_false_iff.mpr hleap]
    show _ < 365
    simp only [isLeapYear, Bool.and_eq_true, Bool.or_eq_true, beq_iff_eq, bne_iff_ne] at hleap
    omega

theorem monthLength_le (leap : Bool) (month : Nat) : monthLength leap month ≤ 31 := by
  unfold monthLength
  split
  · split <;> decide
  all_goals decide

/-- The date of a day exists. -/
theorem make?_ofDays (days : Int) (hyear : isSupportedYear (Date.ofDays days).year = true) :
    Date.make? (Date.ofDays days).year (Date.ofDays days).month (Date.ofDays days).day
      = some (Date.ofDays days) := by
  have hcycle : (days % 146097).toNat < 146097 := by omega
  obtain ⟨hfrom, hto, hone, hlast⟩ :=
    monthAndDay_cases (yearDay_lt (days / 146097) hcycle rfl rfl rfl)
  exact if_pos ⟨hyear, hfrom, hto, hone, hlast⟩

/-! ### Whole texts -/

/-- A date that exists is read back from its text if its year has at most four digits. -/
theorem readDate_text {date : Date} (hexists : Date.make? date.year date.month date.day = some date)
    (hnonneg : 0 ≤ date.year) (hle : date.year ≤ 9999) (rest : List Char) :
    readDate (padded 4 date.year.toNat ++ '-' :: (padded 2 date.month ++ '-' ::
      (padded 2 date.day ++ rest))) = .ok (date, rest) := by
  have hyear : date.year.toNat < 10 ^ 4 := by omega
  have hmonth : date.month ≤ 12 ∧ date.day ≤ 31 := by
    unfold Date.make? at hexists
    split at hexists
    · rename_i hvalid
      exact ⟨hvalid.2.2.1, Nat.le_trans hvalid.2.2.2.2 (monthLength_le _ _)⟩
    · cases hexists
  simp only [readDate, bind, Except.bind]
  rw [readFixed_padded (by decide) hyear]
  dsimp only [readChar]
  rw [if_pos rfl]
  dsimp only
  rw [readFixed_padded (by decide) (by omega)]
  dsimp only [readChar]
  rw [if_pos rfl]
  dsimp only
  rw [readFixed_padded (by decide) (by omega)]
  dsimp only
  rw [Int.toNat_of_nonneg hnonneg, hexists]
  rfl

/-- A time of the day is read back from its text, to the millisecond. -/
theorem readClock_text {c : Clock} (hhour : c.hour ≤ 23) (hminute : c.minute ≤ 59)
    (hsecond : c.second ≤ 60) {millis : Nat} (hmillis : millis < 10 ^ 3) :
    readClock c.date (padded 2 c.hour ++ ':' :: (padded 2 c.minute ++ ':' ::
      (padded 2 c.second ++ '.' :: (padded 3 millis ++ ['Z']))))
      = .ok ({ c with nanos := millis * milliNanos }, ['Z']) := by
  simp only [readClock, bind, Except.bind]
  rw [readFixed_padded (by decide) (by omega)]
  dsimp only [readChar]
  rw [if_pos rfl]
  dsimp only
  rw [readFixed_padded (by decide) (by omega)]
  dsimp only [readChar]
  rw [if_pos rfl]
  dsimp only
  rw [readFixed_padded (by decide) (by omega)]
  dsimp only
  rw [readFraction_padded (by decide) (by decide) hmillis]
  dsimp only
  rw [if_pos ⟨hhour, hminute, hsecond⟩]
  rfl

/-- The year of the instant has at most four digits, and its nanoseconds are within bounds. -/
structure Instant.HasShortYear (t : Instant) : Prop where
  year_nonneg : 0 ≤ t.clock.date.year
  year_le : t.clock.date.year ≤ 9999
  nanos_lt : t.nanos < 2 * secondNanos

/-- What the clock shows at an instant, to the millisecond. -/
def Instant.shown (t : Instant) : Clock :=
  { t.clock with nanos := t.clock.nanos / milliNanos * milliNanos }

variable {t : Instant}

theorem isSupportedYear_of_short {year : Int} (hnonneg : 0 ≤ year) (hle : year ≤ 9999) :
    isSupportedYear year = true := by
  rw [isSupportedYear, Bool.and_eq_true, decide_eq_true_iff, decide_eq_true_iff]
  omega

theorem date_clock (t : Instant) :
    t.clock.date = Date.ofDays (t.seconds / daySeconds + epochDay) := by
  rw [Instant.clock]

/-- A clock shows numbers within the bounds of a day. -/
theorem clock_le (hnanos : t.nanos < 2 * secondNanos) :
    t.clock.hour ≤ 23 ∧ t.clock.minute ≤ 59 ∧ t.clock.second ≤ 60 ∧
      t.clock.nanos / milliNanos < 10 ^ 3 := by
  have hday : (t.seconds % daySeconds).toNat < 86400 := by
    rw [daySeconds]
    omega
  unfold Instant.clock
  dsimp only
  rw [secondNanos] at *
  refine ⟨by omega, by omega, ?_, ?_⟩
  · split <;> omega
  · rw [milliNanos]
    split <;> omega

/-- The text of a clock is read back, to the millisecond. -/
theorem read_clockText {c : Clock}
    (hexists : Date.make? c.date.year c.date.month c.date.day = some c.date)
    (hnonneg : 0 ≤ c.date.year) (hle : c.date.year ≤ 9999) (hhour : c.hour ≤ 23)
    (hminute : c.minute ≤ 59) (hsecond : c.second ≤ 60) {millis : Nat} (hmillis : millis < 10 ^ 3) :
    Instant.read (String.ofList (c.text ++ '.' :: padded 3 millis ++ ['Z']))
      = .ok (Instant.ofClock { c with nanos := millis * milliNanos } 0) := by
  have hyear : yearText c.date.year = padded 4 c.date.year.toNat := if_pos ⟨hnonneg, hle⟩
  have htext : (String.ofList (c.text ++ '.' :: padded 3 millis ++ ['Z'])).toList
      = padded 4 c.date.year.toNat ++ '-' :: (padded 2 c.date.month ++ '-' ::
        (padded 2 c.date.day ++ 'T' :: (padded 2 c.hour ++ ':' :: (padded 2 c.minute ++ ':' ::
          (padded 2 c.second ++ '.' :: (padded 3 millis ++ ['Z'])))))) := by
    simp [Clock.text, hyear]
  have hlong : ¬ byteLength (String.ofList (c.text ++ '.' :: padded 3 millis ++ ['Z'])).toList
      < fixedLength := by
    have hle := length_le_byteLength
      (String.ofList (c.text ++ '.' :: padded 3 millis ++ ['Z'])).toList
    rw [htext] at hle ⊢
    simp only [List.length_append, List.length_cons] at hle
    have hyears := le_length_padded 4 c.date.year.toNat
    have hparts := le_length_padded 2
    have hmonth := hparts c.date.month
    have hday := hparts c.date.day
    have hhours := hparts c.hour
    have hminutes := hparts c.minute
    have hseconds := hparts c.second
    rw [fixedLength]
    omega
  simp only [Instant.read, bind, Except.bind]
  rw [if_neg hlong, htext, readDate_text hexists hnonneg hle]
  dsimp only [readSeparator]
  rw [if_pos (by simp)]
  dsimp only
  rw [readClock_text hhour hminute hsecond hmillis]
  rfl

/-- The date that a clock shows exists. -/
theorem make?_clock (ht : t.HasShortYear) :
    Date.make? t.clock.date.year t.clock.date.month t.clock.date.day = some t.clock.date := by
  have hnonneg := ht.year_nonneg
  have hle := ht.year_le
  rw [date_clock] at hnonneg hle ⊢
  exact make?_ofDays _ (isSupportedYear_of_short hnonneg hle)

/-- **Written times can be read.** -/
theorem read_millisText (ht : t.HasShortYear) :
    Instant.read t.millisText = .ok (Instant.ofClock t.shown 0) := by
  obtain ⟨hhour, hminute, hsecond, hmillis⟩ := clock_le ht.nanos_lt
  exact read_clockText (make?_clock ht) ht.year_nonneg ht.year_le hhour hminute hsecond hmillis

end ResponseExport.Time
