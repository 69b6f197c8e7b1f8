/-!
# The calendar

Days are counted from 1 January of the year 1, in the calendar of today carried back to that
year; the count of that day is zero.

> `daysBeforeYear_lt`: a later year begins later.
-/

namespace Custody

/-- Whether a year has a 29 February. -/
def isLeapYear (y : Nat) : Bool := y % 4 = 0 && (y % 100 != 0 || y % 400 = 0)

/-- The days of a month. -/
def daysInMonth (y m : Nat) : Nat :=
  match m with
  | 2 => if isLeapYear y then 29 else 28
  | 4 | 6 | 9 | 11 => 30
  | _ => 31

/-- The days before 1 January of a year. -/
def daysBeforeYear (y : Nat) : Nat :=
  365 * (y - 1) + (y - 1) / 4 - (y - 1) / 100 + (y - 1) / 400

/-- The days of a year before the first of a month. -/
def daysBeforeMonth (y : Nat) : Nat → Nat
  | 0 => 0
  | 1 => 0
  | m + 1 => daysBeforeMonth y m + daysInMonth y m

/-- A day of the calendar. -/
structure CivilDate where
  year : Nat
  month : Nat
  day : Nat
deriving DecidableEq, Repr, Inhabited

namespace CivilDate

/-- Whether the month exists and has the day. -/
def isValid (d : CivilDate) : Bool :=
  1 ≤ d.month && d.month ≤ 12 && 1 ≤ d.day && d.day ≤ daysInMonth d.year d.month

/-- The number of a day. -/
def dayNumber (d : CivilDate) : Nat :=
  daysBeforeYear d.year + daysBeforeMonth d.year d.month + (d.day - 1)

/-- The month and day of the `n`-th day of a year, months being tried from `m` on. -/
def monthOfDay (y : Nat) : Nat → Nat → Nat → Nat × Nat
  | 0, m, n => (m, n + 1)
  | fuel + 1, m, n =>
    if n < daysInMonth y m then (m, n + 1) else monthOfDay y fuel (m + 1) (n - daysInMonth y m)

/-- The day with a number: whole cycles of 400, 100, 4 and 1 years are taken off in turn, and the
last day of a longer cycle stays in it. -/
def ofDayNumber (n : Nat) : CivilDate :=
  let n400 := n / 146097
  let r := n % 146097
  let n100 := min 3 (r / 36524)
  let r := r - n100 * 36524
  let n4 := r / 1461
  let r := r % 1461
  let n1 := min 3 (r / 365)
  let r := r - n1 * 365
  let y := 400 * n400 + 100 * n100 + 4 * n4 + n1 + 1
  let (m, d) := monthOfDay y 11 1 r
  { year := y, month := m, day := d }

end CivilDate

/-- The number of the Monday of a year's first week, the one that holds its first Thursday. -/
def firstMonday (y : Nat) : Int :=
  let first : Int := daysBeforeYear y
  let w := first % 7
  let monday := first - w
  if 3 < w then monday + 7 else monday

/-- Whether a year has a 53rd week. -/
def hasLongYear (y : Nat) : Bool :=
  let w := daysBeforeYear y % 7
  w = 3 || (w = 2 && isLeapYear y)

example : (CivilDate.mk 1970 1 1).dayNumber = 719162 := by decide

example : CivilDate.ofDayNumber 719162 = ⟨1970, 1, 1⟩ := by decide

example : CivilDate.ofDayNumber (CivilDate.mk 2024 2 29).dayNumber = ⟨2024, 2, 29⟩ := by decide

example : CivilDate.ofDayNumber (CivilDate.mk 2000 12 31).dayNumber = ⟨2000, 12, 31⟩ := by decide

/-- The days before a year grow with the year. -/
theorem daysBeforeYear_lt {y z : Nat} (hy : 1 ≤ y) (h : y < z) :
    daysBeforeYear y < daysBeforeYear z := by
  unfold daysBeforeYear
  omega

end Custody
