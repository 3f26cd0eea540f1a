import ResponseExport.Proofs.Text.Order
import ResponseExport.Proofs.Time.Dates

/-!
# `ResponseExport.Proofs.Time.Order`: the order of texts is the order in time

The table of jobs keeps times as texts and sorts by the bytes of these texts. That is
the order in time, since `Instant.millisText` writes the year first and the
milliseconds last, and every number in a fixed width:

* `order_padded`: numbers of one width are in the order of their texts;
* `order_clockText`: so are clocks, of which a text is made number by number;
* `order_clock`: what a clock shows, to the millisecond, follows the instants;
* `order_millisText`: the three together.

A text does not tell instants of one millisecond apart. `Instant.toMillis` is what is
left of an instant, and also what is read back from its text (`read_millisText_eq`).

Leap seconds are instants as well. They are shown as second 60 of a minute that has
59 seconds behind it, so they come after these and before the next minute.
-/

set_option autoImplicit false

namespace ResponseExport.Time

/-- The text of characters, as the tables compare it. -/
def textOrder (cs ds : List Char) : Ordering := Text.order (String.ofList cs) (String.ofList ds)

/-! ### Numbers of fixed width -/

theorem toNat_lt_of_mem_padded {width n : Nat} {c : Char} (hc : c ∈ padded width n) :
    c.toNat < 128 := by
  have hdigit := isDigit_of_mem_padded hc
  rw [isDigit_eq] at hdigit
  exact Text.toNat_lt_of_isAlphanum (by rw [Char.isAlphanum, hdigit, Bool.or_true])

theorem order_digitChar : ∀ a < 10, ∀ b < 10,
    textOrder [Nat.digitChar a] [Nat.digitChar b] = compare a b := by
  decide +kernel

/-- The last digit of a number stands behind the others. -/
theorem padded_succ (width n : Nat) :
    padded (width + 2) n = padded (width + 1) (n / 10) ++ [Nat.digitChar (n % 10)] := by
  rw [padded, padded]
  by_cases hn : n < 10
  · -- What is left of a number of one digit is 0, which is written as a digit itself.
    rw [Nat.toDigits_of_lt_base hn, Nat.div_eq_of_lt hn, Nat.mod_eq_of_lt hn]
    show List.replicate (width + 1) '0' ++ _ = (List.replicate width '0' ++ ['0']) ++ _
    rw [List.replicate_succ']
  · rw [Nat.toDigits_of_base_le (by decide) (Nat.not_lt.mp hn), List.length_append,
      List.length_singleton, Nat.add_sub_add_right (width + 1) 1, List.append_assoc]

/-- Texts of numbers of one width are in the order of the numbers. -/
theorem order_padded {width n m : Nat} (hn : n < 10 ^ (width + 1)) (hm : m < 10 ^ (width + 1)) :
    textOrder (padded (width + 1) n) (padded (width + 1) m) = compare n m := by
  induction width generalizing n m with
  | zero =>
      have hdigit : ∀ k < 10, padded 1 k = [Nat.digitChar k] := by
        intro k hk
        rw [padded, Nat.toDigits_of_lt_base hk]
        rfl
      rw [hdigit n hn, hdigit m hm]
      exact order_digitChar n hn m hm
  | succ width ih =>
      rw [Nat.pow_succ] at hn hm
      have hn' : n / 10 < 10 ^ (width + 1) := Nat.div_lt_of_lt_mul (by rwa [Nat.mul_comm])
      have hm' : m / 10 < 10 ^ (width + 1) := Nat.div_lt_of_lt_mul (by rwa [Nat.mul_comm])
      have hlength :
          (padded (width + 1) (n / 10)).length = (padded (width + 1) (m / 10)).length := by
        rw [length_padded (Nat.succ_pos _) hn', length_padded (Nat.succ_pos _) hm']
      rw [padded_succ, padded_succ, textOrder, Text.order_append
        (fun _ => toNat_lt_of_mem_padded) (fun _ => toNat_lt_of_mem_padded) hlength]
      show (textOrder _ _).then (textOrder _ _) = _
      rw [ih hn' hm', order_digitChar _ (Nat.mod_lt n (by decide)) _ (Nat.mod_lt m (by decide))]
      -- The leading digits decide, and the last one if they agree.
      rcases Nat.lt_trichotomy n m with hlt | rfl | hgt
      · rw [Nat.compare_eq_lt.mpr hlt, Ordering.then_eq_lt, Nat.compare_eq_lt, Nat.compare_eq_lt,
          Nat.compare_eq_eq]
        omega
      · rw [Nat.compare_eq_eq.mpr rfl, Nat.compare_eq_eq.mpr rfl, Nat.compare_eq_eq.mpr rfl]
        rfl
      · rw [Nat.compare_eq_gt.mpr hgt, Ordering.then_eq_gt, Nat.compare_eq_gt, Nat.compare_eq_gt,
          Nat.compare_eq_eq]
        omega

/-! ### Clocks -/

namespace Clock

/-- Clocks in order, to the millisecond. -/
def order (c d : Clock) : Ordering :=
  (c.date.order d.date).then ((compare c.hour d.hour).then ((compare c.minute d.minute).then
    ((compare c.second d.second).then (compare (c.nanos / milliNanos) (d.nanos / milliNanos)))))

/-- A clock that shows numbers within the bounds of a day, on a date that exists, in a year of at
most four digits. -/
structure IsShort (c : Clock) : Prop where
  date : c.date.IsValid
  year_nonneg : 0 ≤ c.date.year
  year_le : c.date.year ≤ 9999
  hour_le : c.hour ≤ 23
  minute_le : c.minute ≤ 59
  second_le : c.second ≤ 60
  millis_lt : c.nanos / milliNanos < 10 ^ 3

/-- What a clock shows, to the millisecond. -/
def millisText (c : Clock) : List Char := c.text ++ '.' :: padded 3 (c.nanos / milliNanos) ++ ['Z']

end Clock

/-- A number and the sign behind it are compared by the number, and then what follows is. -/
theorem order_padded_cons {width n m : Nat} (hn : n < 10 ^ (width + 1))
    (hm : m < 10 ^ (width + 1)) {sign : Char} (hsign : sign.toNat < 128) (cs ds : List Char) :
    textOrder (padded (width + 1) n ++ sign :: cs) (padded (width + 1) m ++ sign :: ds)
      = (compare n m).then (textOrder cs ds) := by
  have hlength : (padded (width + 1) n).length = (padded (width + 1) m).length := by
    rw [length_padded (Nat.succ_pos _) hn, length_padded (Nat.succ_pos _) hm]
  have hascii : ∀ c ∈ [sign], c.toNat < 128 := List.forall_mem_singleton.mpr hsign
  rw [textOrder, Text.order_append (fun _ => toNat_lt_of_mem_padded)
    (fun _ => toNat_lt_of_mem_padded) hlength]
  show (textOrder _ _).then (Text.order (String.ofList ([sign] ++ cs)) _) = _
  rw [order_padded hn hm, ← List.singleton_append (l := ds), Text.order_append hascii hascii rfl,
    Text.order_self]
  rfl

theorem Clock.millisText_eq {c : Clock} (hc : c.IsShort) :
    c.millisText = padded 4 c.date.year.toNat ++ '-' :: (padded 2 c.date.month ++ '-' ::
      (padded 2 c.date.day ++ 'T' :: (padded 2 c.hour ++ ':' :: (padded 2 c.minute ++ ':' ::
        (padded 2 c.second ++ '.' :: (padded 3 (c.nanos / milliNanos) ++ 'Z' :: [])))))) := by
  have hyear : yearText c.date.year = padded 4 c.date.year.toNat :=
    if_pos ⟨hc.year_nonneg, hc.year_le⟩
  simp [Clock.millisText, Clock.text, hyear]

/-- Clocks are in the order of their texts. -/
theorem order_clockText {c d : Clock} (hc : c.IsShort) (hd : d.IsShort) :
    textOrder c.millisText d.millisText = c.order d := by
  have hcyear := hc.year_le
  have hdyear := hd.year_le
  have hyears : compare c.date.year.toNat d.date.year.toNat = compare c.date.year d.date.year := by
    rw [← Int.toNat_of_nonneg hc.year_nonneg, ← Int.toNat_of_nonneg hd.year_nonneg]
    simp only [Int.toNat_natCast, Nat.compare_eq_ite_lt, Int.compare_eq_ite_lt, Int.ofNat_lt]
  -- Every part but the year fits into two digits, or into three.
  have hwidth {n bound : Nat} (hn : n ≤ bound) (hbound : bound ≤ 99) : n < 10 ^ 2 := by omega
  have hdays {e : Clock} (he : e.IsShort) : e.date.day < 10 ^ 2 :=
    hwidth (Nat.le_trans he.date.day_le (monthLength_le _ _)) (by decide)
  rw [Clock.millisText_eq hc, Clock.millisText_eq hd,
    order_padded_cons (by omega) (by omega) (by decide),
    order_padded_cons (hwidth hc.date.month_le (by decide)) (hwidth hd.date.month_le (by decide))
      (by decide),
    order_padded_cons (hdays hc) (hdays hd) (by decide),
    order_padded_cons (hwidth hc.hour_le (by decide)) (hwidth hd.hour_le (by decide)) (by decide),
    order_padded_cons (hwidth hc.minute_le (by decide)) (hwidth hd.minute_le (by decide))
      (by decide),
    order_padded_cons (hwidth hc.second_le (by decide)) (hwidth hd.second_le (by decide))
      (by decide),
    order_padded_cons hc.millis_lt hd.millis_lt (by decide), hyears]
  show _ = ((compare c.date.year d.date.year).then _).then _
  rw [Ordering.then_assoc, Ordering.then_assoc]
  show (Ordering.then _ (Ordering.then _ (Ordering.then _ (Ordering.then _ (Ordering.then _
    (Ordering.then _ (Ordering.then _ .eq))))))) = _
  rw [Ordering.then_eq]

/-! ### Instants -/

/-- Numbers are compared by how often they contain another one, and then by what is left. -/
theorem compare_div_mod (a b k : Nat) :
    (compare (a / k) (b / k)).then (compare (a % k) (b % k)) = compare a b := by
  have ha := Nat.div_add_mod a k
  have hb := Nat.div_add_mod b k
  rcases Nat.lt_trichotomy (a / k) (b / k) with hlt | heq | hgt
  · have : a < b := Nat.lt_of_div_lt_div hlt
    rw [Nat.compare_eq_lt.mpr hlt, Nat.compare_eq_lt.mpr this]
    rfl
  · rw [heq] at ha
    have hlt : a % k < b % k ↔ a < b := by omega
    have hgt : b % k < a % k ↔ b < a := by omega
    rw [heq, Nat.compare_eq_eq.mpr rfl, Nat.compare_eq_ite_lt, Nat.compare_eq_ite_lt]
    simp only [hlt, hgt, Ordering.then]
  · have : b < a := Nat.lt_of_div_lt_div hgt
    rw [Nat.compare_eq_gt.mpr hgt, Nat.compare_eq_gt.mpr this]
    rfl

namespace Instant

/-- Instants in order. A leap second follows the second that it is added to. -/
def order (s t : Instant) : Ordering :=
  (compare s.seconds t.seconds).then (compare s.nanos t.nanos)

/-- What is left of an instant to the millisecond, which is cut and not rounded. -/
def toMillis (t : Instant) : Instant := ⟨t.seconds, t.nanos / milliNanos * milliNanos⟩

/-- A clock can show the instant, and its year is one of 0 to 9999. -/
structure IsReading (t : Instant) : Prop where
  hasClock : t.hasClock = true
  year_nonneg : 0 ≤ t.clock.date.year
  year_le : t.clock.date.year ≤ 9999

theorem isReading_iff {t : Instant} :
    t.IsReading ↔ t.hasClock = true ∧ 0 ≤ t.clock.date.year ∧ t.clock.date.year ≤ 9999 :=
  ⟨fun h => ⟨h.hasClock, h.year_nonneg, h.year_le⟩, fun h => ⟨h.1, h.2.1, h.2.2⟩⟩

instance (t : Instant) : Decidable t.IsReading := decidable_of_iff _ isReading_iff.symm

/-- The nanoseconds are those of a second, unless it is the last one of a minute. -/
theorem IsReading.nanos_cases {t : Instant} (ht : t.IsReading) :
    t.nanos < secondNanos ∨ t.nanos < 2 * secondNanos ∧ t.seconds % 60 = 59 := by
  have h := ht.hasClock
  rw [Instant.hasClock, Bool.and_eq_true, Bool.and_eq_true, Bool.or_eq_true, decide_eq_true_iff,
    decide_eq_true_iff, beq_iff_eq] at h
  exact h.2.imp_right fun hlast => ⟨h.1.2, hlast⟩

theorem IsReading.nanos_lt {t : Instant} (ht : t.IsReading) : t.nanos < 2 * secondNanos := by
  rcases ht.nanos_cases with h | h
  · exact Nat.lt_of_lt_of_le h (by decide)
  · exact h.1

theorem IsReading.hasShortYear {t : Instant} (ht : t.IsReading) : t.HasShortYear :=
  ⟨ht.year_nonneg, ht.year_le, ht.nanos_lt⟩

theorem IsReading.isShort {t : Instant} (ht : t.IsReading) : t.clock.IsShort := by
  obtain ⟨hhour, hminute, hsecond, hmillis⟩ := clock_le ht.nanos_lt
  refine ⟨?_, ht.year_nonneg, ht.year_le, hhour, hminute, hsecond, hmillis⟩
  rw [date_clock]
  exact Date.isValid_ofDays _

end Instant

/-- Seconds are compared by their days, and then within the day. -/
theorem compare_days (a b : Int) :
    (compare (a / daySeconds + epochDay) (b / daySeconds + epochDay)).then
      (compare (a % daySeconds).toNat (b % daySeconds).toNat) = compare a b := by
  rw [daySeconds, epochDay]
  rcases Int.lt_trichotomy a b with h | rfl | h
  · rw [Int.compare_eq_lt.mpr h, Ordering.then_eq_lt, Int.compare_eq_lt, Int.compare_eq_eq,
      Nat.compare_eq_lt]
    omega
  · rw [Int.compare_eq_eq.mpr rfl, Int.compare_eq_eq.mpr rfl, Nat.compare_eq_eq.mpr rfl]
    rfl
  · rw [Int.compare_eq_gt.mpr h, Ordering.then_eq_gt, Int.compare_eq_gt, Int.compare_eq_eq,
      Nat.compare_eq_gt]
    omega

/-- Seconds of a day are compared by hour, minute and second. -/
theorem compare_inDay (a b : Nat) :
    (compare (a / 3600) (b / 3600)).then ((compare (a / 60 % 60) (b / 60 % 60)).then
      (compare (a % 60) (b % 60))) = compare a b := by
  have hminutes : ∀ n : Nat, n / 3600 = n / 60 / 60 := by omega
  rw [hminutes, hminutes, ← Ordering.then_assoc, compare_div_mod, compare_div_mod]

/-- Nanoseconds of a leap second count on from those of the last second of a minute, and are shown
as those of second 60. -/
theorem compare_leap {a b n m : Nat} (ha : a < 60) (hb : b < 60)
    (hn : n < secondNanos ∨ n < 2 * secondNanos ∧ a = 59)
    (hm : m < secondNanos ∨ m < 2 * secondNanos ∧ b = 59) :
    (compare (a + if secondNanos ≤ n then 1 else 0) (b + if secondNanos ≤ m then 1 else 0)).then
      (compare ((n - (if secondNanos ≤ n then 1 else 0) * secondNanos) / milliNanos)
        ((m - (if secondNanos ≤ m then 1 else 0) * secondNanos) / milliNanos))
      = (compare a b).then
        (compare (n / milliNanos * milliNanos) (m / milliNanos * milliNanos)) := by
  have hleap : ∀ k, k < secondNanos ∧ (if secondNanos ≤ k then 1 else 0) = 0 ∨
      secondNanos ≤ k ∧ (if secondNanos ≤ k then 1 else 0) = 1 := by
    intro k
    by_cases hk : secondNanos ≤ k
    · exact .inr ⟨hk, if_pos hk⟩
    · exact .inl ⟨Nat.not_le.mp hk, if_neg hk⟩
  have hleapn := hleap n
  have hleapm := hleap m
  generalize (if secondNanos ≤ n then 1 else 0) = leapn at *
  generalize (if secondNanos ≤ m then 1 else 0) = leapm at *
  rw [secondNanos] at *
  rw [milliNanos]
  cases h : (compare a b).then (compare (n / 1000000 * 1000000) (m / 1000000 * 1000000)) with
  | lt =>
      rw [Ordering.then_eq_lt, Nat.compare_eq_lt, Nat.compare_eq_lt, Nat.compare_eq_eq] at h ⊢
      omega
  | eq =>
      rw [Ordering.then_eq_eq, Nat.compare_eq_eq, Nat.compare_eq_eq] at h ⊢
      omega
  | gt =>
      rw [Ordering.then_eq_gt, Nat.compare_eq_gt, Nat.compare_eq_gt, Nat.compare_eq_eq] at h ⊢
      omega

/-- What a clock shows, to the millisecond, is in the order of the instants. -/
theorem order_clock {s t : Instant} (hs : s.IsReading) (ht : t.IsReading) :
    s.clock.order t.clock = s.toMillis.order t.toMillis := by
  have hsecond {t : Instant} (ht : t.IsReading) :
      t.nanos < secondNanos ∨
        t.nanos < 2 * secondNanos ∧ (t.seconds % daySeconds).toNat % 60 = 59 := by
    refine ht.nanos_cases.imp_right fun h => ⟨h.1, ?_⟩
    have hlast := h.2
    rw [daySeconds]
    omega
  have hbelow : ∀ n : Nat, n % 60 < 60 := fun n => Nat.mod_lt n (by decide)
  rw [Clock.order, date_clock, date_clock, Date.order_ofDays, Instant.order]
  show Ordering.then _ (Ordering.then _ (Ordering.then _ (Ordering.then
    (compare (_ + if secondNanos ≤ s.nanos then 1 else 0) _) _)))
    = Ordering.then (compare s.seconds t.seconds) _
  rw [← compare_days s.seconds, ← compare_inDay (s.seconds % daySeconds).toNat]
  simp only [Ordering.then_assoc]
  congr 3
  exact compare_leap (hbelow _) (hbelow _) (hsecond hs) (hsecond ht)

/-- **The order of texts is the order in time**, to the millisecond. -/
theorem order_millisText {s t : Instant} (hs : s.IsReading) (ht : t.IsReading) :
    Text.order s.millisText t.millisText = s.toMillis.order t.toMillis :=
  (order_clockText hs.isShort ht.isShort).trans (order_clock hs ht)

/-- A clock that shows an instant, but with other nanoseconds, shows the same second with them. -/
theorem ofClock_with_nanos {t : Instant} (ht : t.IsReading) (nanos : Nat) :
    Instant.ofClock { t.clock with nanos := nanos } 0
      = ⟨t.seconds, nanos + (if secondNanos ≤ t.nanos then 1 else 0) * secondNanos⟩ := by
  have hnanos := ht.nanos_cases
  rw [Instant.ofClock, date_clock, Date.toDays_ofDays, Instant.clock]
  simp only [Instant.mk.injEq]
  rw [secondNanos, daySeconds, epochDay] at *
  by_cases hleap : 1000000000 ≤ t.nanos
  · simp only [hleap, if_true]
    split <;> omega
  · simp only [hleap, if_false]
    split <;> omega

/-- What is read back from the text of an instant is the instant, to the millisecond. -/
theorem read_millisText_eq {t : Instant} (ht : t.IsReading) :
    Instant.read t.millisText = .ok t.toMillis := by
  have hnanos := ht.nanos_lt
  rw [read_millisText ht.hasShortYear, Instant.shown, ofClock_with_nanos ht, Instant.toMillis,
    Instant.clock]
  simp only [Except.ok.injEq, Instant.mk.injEq, true_and]
  rw [secondNanos, milliNanos] at *
  split <;> omega

end ResponseExport.Time
