/-!
# `ResponseExport.Time.Calendar`: days and dates

The Gregorian calendar, extended over all years. Days are counted from 1 January of year 1; a date
is found by taking whole cycles of 400, 100, 4 and 1 years off that count. The last day of a leap
year would begin a fifth century or a fifth year, so the counts of those stop at three.
-/

set_option autoImplicit false

namespace ResponseExport.Time

/-- A date. -/
structure Date where
  year : Int
  /-- 1 to 12. -/
  month : Nat
  /-- 1 to 31. -/
  day : Nat
  deriving Repr, DecidableEq

/-- Has the year a 29 February? -/
def isLeapYear (y : Int) : Bool := y % 4 == 0 && (y % 100 != 0 || y % 400 == 0)

/-- The number of days of a month. -/
def monthLength (leap : Bool) : Nat → Nat
  | 2 => if leap then 29 else 28
  | 4 | 6 | 9 | 11 => 30
  | _ => 31

/-- The number of days of the months before `month`. -/
def daysBeforeMonth (leap : Bool) (month : Nat) : Nat :=
  (List.range (month - 1)).foldr (fun m days => monthLength leap (m + 1) + days) 0

/-- The number of days of the years before `year`, counted from year 1. -/
def daysBeforeYear (year : Int) : Int :=
  let y := year - 1
  365 * y + y / 4 - y / 100 + y / 400

/-- The number of days from 1 January of year 1 to a date. -/
def Date.toDays (d : Date) : Int :=
  daysBeforeYear d.year + daysBeforeMonth (isLeapYear d.year) d.month + (d.day - 1 : Nat)

/-- The month and day of a day of the year, from `month` on. -/
def monthAndDay (leap : Bool) : Nat → Nat → Nat → Nat × Nat
  | 0, month, day => (month, day + 1)
  | left + 1, month, day =>
    if day < monthLength leap month then (month, day + 1)
    else monthAndDay leap left (month + 1) (day - monthLength leap month)

/-- The date so many days after 1 January of year 1. -/
def Date.ofDays (days : Int) : Date :=
  let cycle := days / 146097
  let r := (days % 146097).toNat
  let century := min (r / 36524) 3
  let r := r - century * 36524
  let quad := r / 1461
  let r := r - quad * 1461
  let single := min (r / 365) 3
  let r := r - single * 365
  let year : Int := 400 * cycle + (100 * century + 4 * quad + single + 1 : Nat)
  let (month, day) := monthAndDay (isLeapYear year) 11 1 r
  ⟨year, month, day⟩

/-- The years that an instant may lie in. -/
def isSupportedYear (y : Int) : Bool := -262143 ≤ y && y ≤ 262142

/-- The date with this year, month and day, if there is one. -/
def Date.make? (year : Int) (month day : Nat) : Option Date :=
  if isSupportedYear year ∧ 1 ≤ month ∧ month ≤ 12 ∧ 1 ≤ day ∧
      day ≤ monthLength (isLeapYear year) month then
    some ⟨year, month, day⟩
  else none

end ResponseExport.Time
