import Mathlib.Algebra.Order.Ring.Nat
import Mathlib.Tactic.ByContra
import Custody.Time.Calendar

/-!
# Days and their numbers

The number of a day is given by a formula, and the day is found again by taking whole cycles of years off
its number. Both go by the calendar as it is lived through: the next day has the next number, past the ends
of months and years, and past a 29 February where the year has one. So a day and its number determine each
other.

> `dayNumber_next`: the next day has the next number.
> `ofDayNumber_spec`: every number is that of a day.
> `dayNumber_injective`: no two days have the same one.
-/

namespace Custody

/-! ## Years and months -/

/-- The days of a year. -/
def daysInYear (y : Nat) : Nat := if isLeapYear y then 366 else 365

theorem isLeapYear_iff {y : Nat} :
    isLeapYear y = true ↔ 4 ∣ y ∧ (¬100 ∣ y ∨ 400 ∣ y) := by
  simp [isLeapYear, Nat.dvd_iff_mod_eq_zero]

/-- The days before a year, counted in cycles of 400, 100, 4 and 1 years. -/
theorem daysBeforeYear_cycles {a b c f : Nat} (hb : b ≤ 3) (hc : c ≤ 24) (hf : f ≤ 3) :
    daysBeforeYear (400 * a + 100 * b + 4 * c + f + 1) =
      146097 * a + 36524 * b + 1461 * c + 365 * f := by
  have h4 : (400 * a + 100 * b + 4 * c + f) / 4 = 100 * a + 25 * b + c := by omega
  have h100 : (400 * a + 100 * b + 4 * c + f) / 100 = 4 * a + b := by omega
  have h400 : (400 * a + 100 * b + 4 * c + f) / 400 = a := by omega
  unfold daysBeforeYear
  rw [Nat.add_sub_cancel, h4, h100, h400]
  omega

theorem daysBeforeYear_succ {y : Nat} (hy : 1 ≤ y) :
    daysBeforeYear (y + 1) = daysBeforeYear y + daysInYear y := by
  have hdiv (k : Nat) : y / k = (y - 1) / k + if k ∣ y then 1 else 0 := by
    obtain ⟨x, rfl⟩ : ∃ x, y = x + 1 := ⟨y - 1, by omega⟩
    exact Nat.succ_div ..
  unfold daysBeforeYear daysInYear
  simp only [Nat.add_sub_cancel, isLeapYear_iff]
  rw [hdiv 4, hdiv 100, hdiv 400]
  have h100 : 100 ∣ y → 4 ∣ y := Nat.dvd_trans (by decide)
  have h400 : 400 ∣ y → 100 ∣ y := Nat.dvd_trans (by decide)
  have hle : (y - 1) / 100 ≤ (y - 1) / 4 := Nat.div_le_div_left (by decide) (by decide)
  -- Of the three counts, each goes up only if the one in front of it does.
  by_cases h : 4 ∣ y
  · by_cases h' : 100 ∣ y
    · by_cases h'' : 400 ∣ y <;> simp [h, h', h''] <;> omega
    · have h'' := mt h400 h'
      simp [h, h', h'']
      omega
  · have h' := mt h100 h
    have h'' := mt h400 h'
    simp [h, h', h'']
    omega

section Months

variable {y m n : Nat}

theorem daysBeforeMonth_succ (hm : 1 ≤ m) :
    daysBeforeMonth y (m + 1) = daysBeforeMonth y m + daysInMonth y m := by
  cases m with
  | zero => omega
  | succ m => rfl

/-- After the last month the year is over. -/
theorem daysBeforeMonth_end (y : Nat) : daysBeforeMonth y 13 = daysInYear y := by
  cases h : isLeapYear y <;> simp [daysBeforeMonth, daysInMonth, daysInYear, h]

theorem daysInMonth_pos (y m : Nat) : 0 < daysInMonth y m := by
  unfold daysInMonth
  split
  · split <;> omega
  all_goals omega

theorem daysBeforeMonth_mono (hm : 1 ≤ m) (h : m ≤ n) : daysBeforeMonth y m ≤ daysBeforeMonth y n := by
  induction h with
  | refl => exact Nat.le_refl _
  | step hmn ih =>
    rw [daysBeforeMonth_succ (Nat.le_trans hm hmn)]
    omega

/-- The month and the day that are found lie as far into the year as they should. -/
theorem monthOfDay_spec (fuel : Nat) (hm : 1 ≤ m) (hfuel : m + fuel = 12)
    (hn : daysBeforeMonth y m + n < daysInYear y) :
    let r := CivilDate.monthOfDay y fuel m n
    (1 ≤ r.1 ∧ r.1 ≤ 12) ∧ (1 ≤ r.2 ∧ r.2 ≤ daysInMonth y r.1) ∧
      daysBeforeMonth y r.1 + (r.2 - 1) = daysBeforeMonth y m + n := by
  rw [← daysBeforeMonth_end] at hn
  induction fuel generalizing m n with
  | zero =>
    -- Only December is left, and the day lies in it.
    obtain rfl : m = 12 := by omega
    rw [daysBeforeMonth_succ hm] at hn
    dsimp only [CivilDate.monthOfDay]
    omega
  | succ fuel ih =>
    have hsucc := daysBeforeMonth_succ (y := y) hm
    unfold CivilDate.monthOfDay
    by_cases hlt : n < daysInMonth y m
    · rw [if_pos hlt]
      dsimp only
      omega
    · rw [if_neg hlt]
      obtain ⟨hmonth, hday, hsum⟩ :=
        ih (m := m + 1) (n := n - daysInMonth y m) (by omega) (by omega) (by omega)
      exact ⟨hmonth, hday, by omega⟩

end Months

/-! ## Days -/

namespace CivilDate

/-- A day that there is. -/
structure Occurs (d : CivilDate) : Prop where
  year : 1 ≤ d.year
  month : 1 ≤ d.month ∧ d.month ≤ 12
  day : 1 ≤ d.day ∧ d.day ≤ daysInMonth d.year d.month

/-- The day after. -/
def next (d : CivilDate) : CivilDate :=
  if d.day < daysInMonth d.year d.month then { d with day := d.day + 1 }
  else if d.month < 12 then ⟨d.year, d.month + 1, 1⟩
  else ⟨d.year + 1, 1, 1⟩

variable {d e : CivilDate}

theorem Occurs.next (h : d.Occurs) : d.next.Occurs := by
  obtain ⟨hyear, hmonth, hday⟩ := h
  unfold CivilDate.next
  split
  next hlt => exact ⟨hyear, hmonth, Nat.le_add_left 1 _, hlt⟩
  next =>
    split
    next hlt => exact ⟨hyear, ⟨Nat.le_add_left 1 _, hlt⟩, Nat.le_refl 1, daysInMonth_pos _ _⟩
    next =>
      exact ⟨Nat.le_add_left 1 _, ⟨Nat.le_refl 1, Nat.le_add_left 1 11⟩, Nat.le_refl 1,
        daysInMonth_pos _ _⟩

/-- The next day has the next number. -/
theorem dayNumber_next (h : d.Occurs) : d.next.dayNumber = d.dayNumber + 1 := by
  obtain ⟨hyear, hmonth, hday⟩ := h
  unfold CivilDate.next dayNumber
  split
  next hlt =>
    dsimp only
    omega
  next hlast =>
    have hsucc := daysBeforeMonth_succ (y := d.year) hmonth.1
    split
    next =>
      dsimp only
      omega
    next hdecember =>
      -- The last day of December is followed by the first one of the next year.
      obtain hm : d.month = 12 := by omega
      rw [hm, daysBeforeMonth_end] at hsucc
      have hyears := daysBeforeYear_succ hyear
      have hfirst : daysBeforeMonth (d.year + 1) 1 = 0 := rfl
      rw [hm] at hday hlast ⊢
      dsimp only
      omega

/-- A day lies in its year. -/
theorem Occurs.in_year (h : d.Occurs) :
    daysBeforeYear d.year ≤ d.dayNumber ∧ d.dayNumber < daysBeforeYear (d.year + 1) := by
  obtain ⟨hyear, hmonth, hday⟩ := h
  have hsucc := daysBeforeMonth_succ (y := d.year) hmonth.1
  have hend := daysBeforeMonth_mono (y := d.year) (m := d.month + 1) (n := 13) (by omega) (by omega)
  rw [daysBeforeMonth_end] at hend
  rw [daysBeforeYear_succ hyear]
  unfold dayNumber
  omega

/-- A day comes before the end of a year exactly if it is of that year or an earlier one. -/
theorem Occurs.year_le_iff (h : d.Occurs) {y : Nat} :
    d.year ≤ y ↔ d.dayNumber < daysBeforeYear (y + 1) := by
  obtain ⟨hle, hlt⟩ := h.in_year
  constructor
  · intro hy
    rcases Nat.eq_or_lt_of_le hy with rfl | hy
    · exact hlt
    · have hbefore := daysBeforeYear_lt (Nat.le_add_left 1 d.year) (Nat.succ_lt_succ hy)
      exact Nat.lt_trans hlt hbefore
  · intro hn
    by_contra hy
    rcases Nat.eq_or_lt_of_le (Nat.lt_of_not_le hy) with heq | hlater
    · rw [Nat.succ_eq_add_one] at heq
      rw [heq] at hn
      omega
    · have hbefore : daysBeforeYear (y + 1) < _ := daysBeforeYear_lt (Nat.le_add_left 1 y) hlater
      omega

/-- No two days have the same number. -/
theorem dayNumber_injective (hd : d.Occurs) (he : e.Occurs) (h : d.dayNumber = e.dayNumber) :
    d = e := by
  have hyear : d.year = e.year := by
    refine Nat.le_antisymm (hd.year_le_iff.mpr ?_) (he.year_le_iff.mpr ?_)
    · exact h ▸ he.in_year.2
    · exact h ▸ hd.in_year.2
  obtain ⟨-, hmonth, hday⟩ := hd
  obtain ⟨-, hmonth', hday'⟩ := he
  unfold dayNumber at h
  rw [hyear] at h hday
  have hsucc := daysBeforeMonth_succ (y := e.year) hmonth.1
  have hsucc' := daysBeforeMonth_succ (y := e.year) hmonth'.1
  have hm : d.month = e.month := by
    -- In a later month more days of the year are over.
    rcases Nat.lt_trichotomy d.month e.month with hlt | heq | hgt
    · have := daysBeforeMonth_mono (y := e.year) (Nat.le_add_left 1 d.month) hlt
      omega
    · exact heq
    · have := daysBeforeMonth_mono (y := e.year) (Nat.le_add_left 1 e.month) hgt
      omega
  obtain ⟨y, m, k⟩ := d
  obtain ⟨y', m', k'⟩ := e
  dsimp only at *
  subst hyear hm
  rw [show k = k' by omega]

/-- What is left of a number when whole cycles of years are taken off it lies in the year that is
found. -/
theorem cycles_spec (n : Nat) :
    let a := n / 146097
    let b := min 3 (n % 146097 / 36524)
    let r := n % 146097 - b * 36524
    let f := min 3 (r % 1461 / 365)
    let y := 400 * a + 100 * b + 4 * (r / 1461) + f + 1
    daysBeforeYear y + (r % 1461 - f * 365) = n ∧ r % 1461 - f * 365 < daysInYear y := by
  intro a b r f y
  have hb : b ≤ 3 := Nat.min_le_left ..
  have hf : f ≤ 3 := Nat.min_le_left ..
  have hr : r ≤ 36524 ∧ (r = 36524 → b = 3) := by omega
  have hrest : r % 1461 - f * 365 ≤ 365 ∧ (r % 1461 - f * 365 = 365 → f = 3) := by omega
  have hyear : daysBeforeYear y = _ := daysBeforeYear_cycles hb (by omega : r / 1461 ≤ 24) hf
  refine ⟨by omega, ?_⟩
  unfold daysInYear
  split
  next => omega
  next hleap =>
    -- A day is left over at the end of a leap year only, as a cycle of 100 years has one more day just
    -- where one of 400 years ends.
    rw [isLeapYear_iff] at hleap
    by_contra hover
    obtain hf : f = 3 := by omega
    have hr' : r % 1461 = 1460 := by omega
    have hcut : r / 1461 = 24 → b = 3 := by omega
    omega

/-- Every number is that of a day. -/
theorem ofDayNumber_spec (n : Nat) : (ofDayNumber n).Occurs ∧ (ofDayNumber n).dayNumber = n := by
  obtain ⟨hsum, hlt⟩ := cycles_spec n
  obtain ⟨hmonth, hday, hinto⟩ := monthOfDay_spec 11 (m := 1) (by decide) rfl
    (by rwa [show daysBeforeMonth _ 1 = 0 from rfl, Nat.zero_add])
  rw [show daysBeforeMonth _ 1 = 0 from rfl, Nat.zero_add] at hinto
  refine ⟨⟨Nat.le_add_left 1 _, hmonth, hday⟩, ?_⟩
  change daysBeforeYear _ + daysBeforeMonth _ _ + (_ - 1) = n
  rw [Nat.add_assoc]
  exact (congrArg _ hinto).trans hsum

end CivilDate

end Custody
