import OrderDesk.Instant.Calendar
import Mathlib.Data.Nat.Basic

/-!
# Every day count is the day count of its date

The conversion to a date counts years from March in eras of four hundred years. Within an era the
number of the year is guessed by a division that takes out the leap days met so far. The guess
never falls from one day to the next, and it is right on the first and on the last day of each
year; so it is right on all days between.

## Main definitions

* `firstDay`, `lastDay`: the days of an era on which a year starts and ends
* `yearOfDay`: the guessed year
* `monthOf`, `dayOf`: month and day of a day of a year that starts in March

## Main results

* `firstDay_le`, `le_lastDay`: the guessed year is the one that the day lies in
* `Date.valid_ofDays`: the date of a day count exists
* `Date.toDays_ofDays`: the day count of the date of a day count
-/

namespace OrderDesk.Calendar

/-! ## Years of an era -/

/-- The day of an era on which its year `y` starts. -/
def firstDay (y : Nat) : Nat :=
  365 * y + y / 4 - y / 100

/-- The day of an era on which its year `y` ends: its February lies in the next civil year. -/
def lastDay (y : Nat) : Nat :=
  firstDay y + 364 + (isLeap (y + 1)).toNat

/-- **The guessed year** of a day of an era. -/
def yearOfDay (d : Nat) : Nat :=
  (d - d / 1460 + d / 36524 - d / 146096) / 365

theorem yearOfDay_le {d d' : Nat} (h : d ≤ d') (hd : d' < 146097) : yearOfDay d ≤ yearOfDay d' := by
  apply Nat.div_le_div_right
  omega

/-- **The guess at the borders of the years**: no day lies between a year and the next. -/
theorem yearOfDay_borders : ∀ y < 400, yearOfDay (firstDay y) = y ∧ yearOfDay (lastDay y) = y ∧
    firstDay (y + 1) ≤ lastDay y + 1 ∧ lastDay y < 146097 := by
  decide +kernel

theorem yearOfDay_lt {d : Nat} (hd : d < 146097) : yearOfDay d < 400 := by
  have h := yearOfDay_le (show d ≤ 146096 by omega) (by decide)
  have last : yearOfDay 146096 = 399 := by decide
  omega

/-- A day is not before the first day of its guessed year. -/
theorem firstDay_le {d : Nat} (hd : d < 146097) : firstDay (yearOfDay d) ≤ d := by
  have small := yearOfDay_lt hd
  by_contra before
  rcases hy : yearOfDay d with _ | y
  · rw [hy] at before
    exact before (Nat.zero_le d)
  · rw [hy] at before small
    obtain ⟨-, last, next, inside⟩ := yearOfDay_borders y (by omega)
    have h := yearOfDay_le (show d ≤ lastDay y by omega) inside
    omega

/-- A day is not behind the last day of its guessed year. -/
theorem le_lastDay {d : Nat} (hd : d < 146097) : d ≤ lastDay (yearOfDay d) := by
  have small := yearOfDay_lt hd
  by_contra behind
  obtain ⟨-, -, next, -⟩ := yearOfDay_borders _ small
  have h := yearOfDay_le (show firstDay (yearOfDay d + 1) ≤ d by omega) hd
  rcases Nat.lt_or_ge (yearOfDay d + 1) 400 with more | none
  · rw [(yearOfDay_borders _ more).1] at h
    omega
  · have final : yearOfDay d = 399 := by omega
    rw [final] at behind
    exact behind (show d ≤ 146096 by omega)

/-! ## Months of a year that starts in March -/

/-- The month of a day of such a year. -/
def monthOf (doy : Nat) : Nat :=
  if (5 * doy + 2) / 153 < 10 then (5 * doy + 2) / 153 + 3 else (5 * doy + 2) / 153 - 9

/-- The day of the month of a day of such a year. -/
def dayOf (doy : Nat) : Nat :=
  doy - (153 * ((5 * doy + 2) / 153) + 2) / 5 + 1

theorem dayOfMarchYear_monthOf : ∀ doy < 366, dayOfMarchYear (monthOf doy) (dayOf doy) = doy := by
  decide +kernel

theorem monthOf_bounds : ∀ doy < 366, 1 ≤ monthOf doy ∧ monthOf doy ≤ 12 := by
  decide +kernel

/-- Day 365 is the leap day; every other day is one of the common year `1`. -/
theorem dayOf_le : ∀ doy < 366,
    dayOf doy ≤ daysInMonth 1 (monthOf doy) ∨ doy = 365 ∧ monthOf doy = 2 ∧ dayOf doy = 29 := by
  decide +kernel

theorem daysInMonth_common_le (year : Int) (month : Nat) :
    daysInMonth 1 month ≤ daysInMonth year month := by
  have february : (if isLeap 1 then 29 else 28) ≤ if isLeap year then 29 else 28 := by
    show 28 ≤ _
    split <;> decide
  unfold daysInMonth
  split
  · exact february
  · exact Nat.le_refl _

/-! ## Eras -/

/-- Leap years repeat with the era. -/
theorem isLeap_era (era : Int) (y : Nat) : isLeap (era * 400 + y + 1) = isLeap (y + 1) := by
  have four : (era * 400 + y + 1) % 4 = ((y : Int) + 1) % 4 := by omega
  have hundred : (era * 400 + y + 1) % 100 = ((y : Int) + 1) % 100 := by omega
  have fourHundred : (era * 400 + y + 1) % 400 = ((y : Int) + 1) % 400 := by omega
  unfold isLeap
  rw [four, hundred, fourHundred]

/-- The date of the day `doy` of the year `y` of an era. -/
def eraDate (era : Int) (y doy : Nat) : Date :=
  ⟨if monthOf doy ≤ 2 then era * 400 + y + 1 else era * 400 + y, monthOf doy, dayOf doy⟩

theorem valid_eraDate (era : Int) {y doy : Nat} (h : doy ≤ 364 + (isLeap (y + 1)).toNat) :
    (eraDate era y doy).valid := by
  have small : doy < 366 := by
    have := Bool.toNat_le (isLeap (y + 1))
    omega
  have month := monthOf_bounds doy small
  have fits : dayOf doy ≤ daysInMonth (eraDate era y doy).year (monthOf doy) := by
    rcases dayOf_le doy small with common | ⟨rfl, february, last⟩
    · exact Nat.le_trans common (daysInMonth_common_le _ _)
    · have leap : isLeap (y + 1) = true := by
        by_contra no
        rw [Bool.not_eq_true] at no
        rw [no] at h
        exact absurd h (by decide)
      have year : (eraDate era y 365).year = era * 400 + y + 1 := rfl
      rw [last, february, year]
      simp [daysInMonth, isLeap_era, leap]
  have day : 1 ≤ dayOf doy := Nat.le_add_left 1 _
  unfold Date.valid
  simp only [Bool.and_eq_true]
  exact ⟨⟨⟨decide_eq_true month.1, decide_eq_true month.2⟩, decide_eq_true day⟩,
    decide_eq_true fits⟩

theorem toDays_eraDate (era : Int) {y doy : Nat} (hy : y < 400) (h : doy < 366) :
    (eraDate era y doy).toDays = era * 146097 + (firstDay y + doy : Nat) - 719468 := by
  have year : (if monthOf doy ≤ 2 then (eraDate era y doy).year - 1
      else (eraDate era y doy).year) = era * 400 + y := by
    unfold eraDate
    split <;> simp
  have month : (eraDate era y doy).month = monthOf doy := rfl
  have day : dayOfMarchYear (monthOf doy) (eraDate era y doy).day = doy :=
    dayOfMarchYear_monthOf doy h
  have quotient : (era * 400 + (y : Int)) / 400 = era := by omega
  have remainder : (era * 400 + (y : Int)) % 400 = y := by omega
  unfold Date.toDays
  simp only [month, year, day, quotient, remainder]
  unfold firstDay
  omega

theorem ofDays_eq_eraDate (days : Int) :
    ∃ era : Int, ∃ y doy : Nat, y < 400 ∧ doy ≤ 364 + (isLeap (y + 1)).toNat ∧
      days = era * 146097 + (firstDay y + doy : Nat) - 719468 ∧
      Date.ofDays days = eraDate era y doy := by
  have inside : ((days + 719468) % 146097).toNat < 146097 := by omega
  generalize hd : ((days + 719468) % 146097).toNat = d at inside
  have first := firstDay_le inside
  have last := le_lastDay inside
  refine ⟨(days + 719468) / 146097, yearOfDay d, d - firstDay (yearOfDay d),
    yearOfDay_lt inside, ?_, ?_, ?_⟩
  · unfold lastDay at last
    omega
  · rw [Nat.add_sub_cancel' first]
    omega
  · subst hd
    rfl

/-! ## Day counts -/

/-- **The date of a day count exists.** -/
theorem Date.valid_ofDays (days : Int) : (Date.ofDays days).valid := by
  obtain ⟨era, y, doy, -, h, -, date⟩ := ofDays_eq_eraDate days
  rw [date]
  exact valid_eraDate era h

/-- **A day count is the day count of its date.** -/
theorem Date.toDays_ofDays (days : Int) : (Date.ofDays days).toDays = days := by
  obtain ⟨era, y, doy, hy, h, count, date⟩ := ofDays_eq_eraDate days
  have small : doy < 366 := by
    have := Bool.toNat_le (isLeap (y + 1))
    omega
  rw [date, toDays_eraDate era hy small, ← count]

example : Date.ofDays 11016 = ⟨2000, 2, 29⟩ := by decide

end OrderDesk.Calendar
