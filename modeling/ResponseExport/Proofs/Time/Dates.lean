import ResponseExport.Proofs.Time.ReadBack

/-!
# `ResponseExport.Proofs.Time.Dates`: dates follow each other like days

A day has a date, `Date.ofDays`, and a date has a day, `Date.toDays`. The first takes
cycles of 400, 100, 4 and 1 years off the number of days and then months, and the
second adds up years and months, so they do not look alike. They belong together in
two ways:

* `toDays_ofDays`: the date of a day has this day, with no exception;
* `order_ofDays`: later days have later dates, where dates are compared year by year,
  then month by month, then day by day. It holds across the ends of months and years,
  and around 29 February.

The second follows from the first and from `toDays_lt`: in a later year, or a later
month of it, or on a later day of that, more days have gone by.
-/

set_option autoImplicit false

namespace ResponseExport.Time

/-- A function that takes smaller things to smaller ones, and equal ones to equal ones, keeps all
comparisons. -/
theorem compare_eq_of_lt {α β : Type} {cmp : α → α → Ordering} {cmp' : β → β → Ordering}
    [Std.OrientedCmp cmp] [Std.OrientedCmp cmp'] {P : α → Prop} {f : α → β}
    (hlt : ∀ a b, P a → P b → cmp a b = .lt → cmp' (f a) (f b) = .lt)
    (heq : ∀ a b, P a → P b → cmp a b = .eq → cmp' (f a) (f b) = .eq) {a b : α} (ha : P a)
    (hb : P b) : cmp' (f a) (f b) = cmp a b := by
  cases h : cmp a b with
  | lt => exact hlt a b ha hb h
  | eq => exact heq a b ha hb h
  | gt => exact Std.OrientedCmp.gt_iff_lt.mpr (hlt b a hb ha (Std.OrientedCmp.gt_iff_lt.mp h))

namespace Date

/-- A date that exists. -/
structure IsValid (d : Date) : Prop where
  one_le_month : 1 ≤ d.month
  month_le : d.month ≤ 12
  one_le_day : 1 ≤ d.day
  day_le : d.day ≤ monthLength (isLeapYear d.year) d.month

/-- Dates in order. -/
def order (a b : Date) : Ordering :=
  (compare a.year b.year).then ((compare a.month b.month).then (compare a.day b.day))

theorem isValid_ofDays (days : Int) : (ofDays days).IsValid := by
  have hcycle : (days % 146097).toNat < 146097 := by omega
  obtain ⟨hfrom, hto, hone, hlast⟩ :=
    monthAndDay_cases (yearDay_lt (days / 146097) hcycle rfl rfl rfl)
  exact ⟨hfrom, hto, hone, hlast⟩

/-! ### The day of a date -/

theorem daysBeforeMonth_succ : ∀ leap, ∀ month < 13, 1 ≤ month →
    daysBeforeMonth leap (month + 1) = daysBeforeMonth leap month + monthLength leap month := by
  decide

/-- Looking for the place of a day among months loses no day. -/
theorem daysBeforeMonth_monthAndDay {leap : Bool} {left month day : Nat} (hmonth : 1 ≤ month)
    (hleft : month + left ≤ 12) :
    daysBeforeMonth leap (monthAndDay leap left month day).1
        + ((monthAndDay leap left month day).2 - 1)
      = daysBeforeMonth leap month + day := by
  induction left generalizing month day with
  | zero => rfl
  | succ left ih =>
      rw [monthAndDay]
      by_cases hhere : day < monthLength leap month
      · rw [if_pos hhere]
        rfl
      · have hnext := daysBeforeMonth_succ leap month (by omega) hmonth
        rw [if_neg hhere, ih (by omega) (by omega), hnext]
        omega

/-- The days before a year whose number is taken apart into cycles of 400, 100, 4 and 1 years. -/
theorem daysBeforeYear_parts (cycle : Int) {century quad single : Nat} (hcentury : century ≤ 3)
    (hquad : quad ≤ 24) (hsingle : single ≤ 3) :
    daysBeforeYear (400 * cycle + (100 * century + 4 * quad + single + 1 : Nat))
      = 146097 * cycle + (36524 * century + 1461 * quad + 365 * single : Nat) := by
  rw [daysBeforeYear]
  omega

/-- A day is so many days into a year, and has its date there. -/
theorem exists_parts (days : Int) : ∃ (cycle : Int) (century quad single day : Nat),
    century ≤ 3 ∧ quad ≤ 24 ∧ single ≤ 3 ∧
    days = 146097 * cycle + (36524 * century + 1461 * quad + 365 * single + day : Nat) ∧
    let year : Int := 400 * cycle + (100 * century + 4 * quad + single + 1 : Nat)
    ofDays days = ⟨year, (monthAndDay (isLeapYear year) 11 1 day).1,
      (monthAndDay (isLeapYear year) 11 1 day).2⟩ :=
  ⟨_, _, _, _, _, by omega, by omega, by omega, by omega, rfl⟩

/-- The date of a day has this day. -/
theorem toDays_ofDays (days : Int) : (ofDays days).toDays = days := by
  obtain ⟨cycle, century, quad, single, day, hcentury, hquad, hsingle, hdays, hdate⟩ :=
    exists_parts days
  have hplace := @daysBeforeMonth_monthAndDay
    (isLeapYear (400 * cycle + (100 * century + 4 * quad + single + 1 : Nat))) 11 1 day
    (by omega) (by omega)
  have hfirst : ∀ leap, daysBeforeMonth leap 1 = 0 := fun leap => rfl
  rw [hfirst] at hplace
  rw [hdate, toDays]
  dsimp only
  rw [daysBeforeYear_parts cycle hcentury hquad hsingle]
  omega

/-! ### Later dates -/

theorem daysBeforeYear_succ (year : Int) :
    daysBeforeYear (year + 1) = daysBeforeYear year + if isLeapYear year then 366 else 365 := by
  simp only [daysBeforeYear, isLeapYear, Bool.and_eq_true, Bool.or_eq_true, beq_iff_eq, bne_iff_ne]
  split <;> omega

theorem daysBeforeYear_mono {year year' : Int} (h : year ≤ year') :
    daysBeforeYear year ≤ daysBeforeYear year' := by
  simp only [daysBeforeYear]
  omega

/-- A month ends with or before its year. -/
theorem endOfMonth_le_year : ∀ leap, ∀ month < 13, 1 ≤ month →
    daysBeforeMonth leap month + monthLength leap month ≤ if leap then 366 else 365 := by
  decide

/-- A month ends before a later one begins. -/
theorem endOfMonth_le : ∀ leap, ∀ month < 13, 1 ≤ month → ∀ month' < 13, month < month' →
    daysBeforeMonth leap month + monthLength leap month ≤ daysBeforeMonth leap month' := by
  decide

theorem order_eq_lt {a b : Date} : a.order b = .lt ↔
    a.year < b.year ∨
      a.year = b.year ∧ (a.month < b.month ∨ a.month = b.month ∧ a.day < b.day) := by
  simp only [order, Ordering.then_eq_lt, Int.compare_eq_lt, Int.compare_eq_eq, Nat.compare_eq_lt,
    Nat.compare_eq_eq]

theorem order_eq_eq {a b : Date} : a.order b = .eq ↔ a = b := by
  obtain ⟨year, month, day⟩ := a
  obtain ⟨year', month', day'⟩ := b
  simp only [order, Ordering.then_eq_eq, Int.compare_eq_eq, Nat.compare_eq_eq, Date.mk.injEq]

instance : Std.OrientedCmp order where
  eq_swap {a b} := by
    have hyear : compare a.year b.year = (compare b.year a.year).swap := Std.OrientedCmp.eq_swap
    have hmonth : compare a.month b.month = (compare b.month a.month).swap :=
      Std.OrientedCmp.eq_swap
    have hday : compare a.day b.day = (compare b.day a.day).swap := Std.OrientedCmp.eq_swap
    rw [order, order, Ordering.swap_then, Ordering.swap_then, hyear, hmonth, hday]

/-- On a later date, more days have gone by. -/
theorem toDays_lt {a b : Date} (ha : a.IsValid) (hb : b.IsValid) (h : a.order b = .lt) :
    a.toDays < b.toDays := by
  have hone := ha.one_le_day
  have hlast := ha.day_le
  have hmonth := Nat.lt_succ_of_le ha.month_le
  have hmonth' := Nat.lt_succ_of_le hb.month_le
  rw [toDays, toDays]
  rcases order_eq_lt.mp h with hyear | ⟨hyear, hmonths | ⟨hmonths, hday⟩⟩
  · -- A later year: the month of the first date ends with its year at the latest.
    have hend := endOfMonth_le_year (isLeapYear a.year) a.month hmonth ha.one_le_month
    have hlater : daysBeforeYear (a.year + 1) ≤ daysBeforeYear b.year :=
      daysBeforeYear_mono (Int.add_one_le_of_lt hyear)
    rw [daysBeforeYear_succ] at hlater
    generalize isLeapYear a.year = leap at hend hlater hlast ⊢
    cases leap <;> simp only [Bool.false_eq_true, if_true, if_false] at hend hlater <;> omega
  · -- A later month of the year.
    have hend := endOfMonth_le (isLeapYear a.year) a.month hmonth ha.one_le_month b.month hmonth'
      hmonths
    rw [← hyear]
    omega
  · rw [← hyear, ← hmonths]
    omega

/-- Days are in the order of their dates. -/
theorem order_ofDays (days days' : Int) :
    (ofDays days).order (ofDays days') = compare days days' := by
  have hdays : compare (ofDays days).toDays (ofDays days').toDays
      = (ofDays days).order (ofDays days') := by
    refine compare_eq_of_lt (P := IsValid) (f := toDays) (fun a b ha hb h => ?_)
      (fun a b _ _ h => ?_) (isValid_ofDays days) (isValid_ofDays days')
    · exact Int.compare_eq_lt.mpr (toDays_lt ha hb h)
    · rw [order_eq_eq.mp h]
      exact Int.compare_eq_eq.mpr rfl
  rw [← hdays, toDays_ofDays, toDays_ofDays]

end Date

end ResponseExport.Time
