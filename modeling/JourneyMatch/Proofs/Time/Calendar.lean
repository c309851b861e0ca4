import Mathlib.Tactic.IntervalCases
import JourneyMatch.Proofs.Time.Civil

/-
  This file shows that the dates of days are those of the
  calendar: each month has the days that it has, February
  one more in a leap year, and the days counted to the date
  of a day are that day.

  Key definitions include:
    * `Date.IsLeap`
    * `Date.monthLength`
    * `Date.Proper`

  Main statements:
    * `Date.days_ofDays`
    * `Date.proper_ofDays`
-/

namespace JourneyMatch

namespace Date

------------------------------------------------------------
-- The calendar
------------------------------------------------------------

/- The years whose February has a leap day. -/
def IsLeap
    (year : Int) : Prop :=
  year % 4 = 0 ∧ (year % 100 ≠ 0 ∨ year % 400 = 0)

instance
    (year : Int) :
    Decidable (IsLeap year) :=
  inferInstanceAs (Decidable (_ ∧ _))

/- The number of days of a month. -/
def monthLength
    (year : Int) : Nat → Nat
  | 2 => if IsLeap year then 29 else 28
  | 4 | 6 | 9 | 11 => 30
  | _ => 31

/- Whether the calendar has a date. -/
structure Proper
    (d : Date) : Prop where
  firstMonth : 1 ≤ d.month
  lastMonth : d.month ≤ 12
  firstDay : 1 ≤ d.day
  lastDay : d.day ≤ monthLength d.year d.month

------------------------------------------------------------
-- Days of a year from March
------------------------------------------------------------

/- The days of the year before a month, counted from March. -/
def daysBeforeMonth
    (month : Nat) : Nat :=
  (153 * month + 2) / 5

/- A day does not lie before the month in which it lies. -/
theorem daysBeforeMonth_le
    (dayOfYear : Nat) :
    daysBeforeMonth (monthOfDay dayOfYear) ≤ dayOfYear := by
  unfold daysBeforeMonth monthOfDay
  omega

/- A year of 366 days ends with a leap day. -/
theorem isLeap_of_dayOfYear
    {day : Nat}
    (hDay : day < 146097)
    (hLast : dayOfYear day = 365)
    (cycles : Int) :
    IsLeap (yearOfCycle day + cycles * 400 + 1) := by
  unfold IsLeap
  by_cases hEnd : yearOfCycle day = 399
  · omega
  · have hYear := yearOfCycle_le hDay
    have hNext := lt_daysBeforeYear_succ hDay hEnd
    have hLonger :
        daysBeforeYear (yearOfCycle day) + 365
          < daysBeforeYear (yearOfCycle day + 1) := by
      unfold dayOfYear at hLast
      omega
    unfold daysBeforeYear at hLonger
    generalize yearOfCycle day = year at *
    have hMore : year / 4 + (year + 1) / 100
        < (year + 1) / 4 + year / 100 := by
      omega
    have hFourth : (year + 1) % 4 = 0 := by
      clear hNext hLonger
      omega
    have hCentury : (year + 1) % 100 ≠ 0 := by
      clear hNext hLonger
      omega
    clear hNext hLonger hMore
    omega

/- All months but February are as long in every year. -/
theorem monthLength_ofMarch
    {month : Nat}
    (hMonth : month < 11)
    (year : Int) :
    monthLength year (if month < 10 then month + 3 else month - 9)
      = daysBeforeMonth (month + 1) - daysBeforeMonth month := by
  interval_cases month <;> rfl

/- The date of a day of a year is one of the calendar. -/
theorem proper_ofMarch
    {year : Int}
    {dayOfYear : Nat}
    (hDay : dayOfYear ≤ 365)
    (hLeap : dayOfYear = 365 → IsLeap (year + 1)) :
    (ofMarch year (monthOfDay dayOfYear)
      (dayOfYear - daysBeforeMonth (monthOfDay dayOfYear)
        + 1)).Proper := by
  have hStart := daysBeforeMonth_le dayOfYear
  have hLast : monthOfDay dayOfYear ≤ 11 := by
    unfold monthOfDay
    omega
  have hNext :
      dayOfYear < daysBeforeMonth (monthOfDay dayOfYear + 1) := by
    unfold daysBeforeMonth monthOfDay
    omega
  generalize monthOfDay dayOfYear = month at *
  unfold ofMarch
  refine ⟨?_, ?_, Nat.succ_pos _, ?_⟩
  · dsimp only
    split <;> omega
  · dsimp only
    split <;> omega
  · dsimp only
    rcases Nat.lt_or_eq_of_le hLast with hMonth | hFebruary
    · rw [monthLength_ofMarch hMonth]
      omega
    · subst hFebruary
      have hBefore : daysBeforeMonth 11 = 337 := by decide
      rw [hBefore]
      simp only [monthLength, Nat.reduceLT, if_false,
        Nat.reduceSub]
      split
      · omega
      · rename_i hCommon
        have hNotLast : dayOfYear ≠ 365 :=
          fun hLong => hCommon (hLeap hLong)
        omega

------------------------------------------------------------
-- Dates of days
------------------------------------------------------------

/- The date of a day is one of the calendar. -/
theorem proper_ofDays
    (days : Int) :
    (ofDays days).Proper := by
  have hDay := dayOfCycle_lt days
  rw [ofDays_eq]
  exact proper_ofMarch (dayOfYear_le hDay)
    fun hLast => isLeap_of_dayOfYear hDay hLast _

theorem days_ofMarch
    {year : Int}
    {month day : Nat}
    (hMonth : month ≤ 11) :
    (ofMarch year month day).days
      = year / 400 * cycle
        + (daysBeforeYear (year % 400).toNat
          + (daysBeforeMonth month + day - 1) : Nat)
        - epoch := by
  by_cases hYear : month < 10
  · have hLate : ¬ month + 3 ≤ 2 := by omega
    simp only [days, ofMarch, if_pos hYear, if_neg hLate,
      Nat.add_sub_cancel, daysBeforeMonth]
  · have hEarly : month - 9 ≤ 2 := by omega
    have hBack : month - 9 + 9 = month := by omega
    simp only [days, ofMarch, if_neg hYear, if_pos hEarly,
      Int.add_sub_cancel, hBack, daysBeforeMonth]

/- The days to the date of a day are that day. -/
theorem days_ofDays
    (days : Int) :
    (ofDays days).days = days := by
  have hDay := dayOfCycle_lt days
  have hYear := yearOfCycle_le hDay
  have hStart := daysBeforeYear_yearOfCycle_le hDay
  have hMonth :=
    daysBeforeMonth_le (dayOfYear (dayOfCycle days))
  have hCycles :
      (yearOfCycle (dayOfCycle days)
          + (days + epoch) / cycle * 400) / 400
        = (days + epoch) / cycle := by
    omega
  have hOfCycle :
      ((yearOfCycle (dayOfCycle days)
          + (days + epoch) / cycle * 400) % 400).toNat
        = yearOfCycle (dayOfCycle days) := by
    omega
  have hParts :
      daysBeforeYear (yearOfCycle (dayOfCycle days))
          + dayOfYear (dayOfCycle days)
        = dayOfCycle days := by
    unfold dayOfYear
    omega
  have hRest :
      (dayOfCycle days : Int) = (days + epoch) % cycle := by
    unfold dayOfCycle cycle
    omega
  rw [ofDays_eq, days_ofMarch (monthOfDay_le days), hCycles,
    hOfCycle]
  unfold daysBeforeMonth cycle at *
  omega

end Date

end JourneyMatch
