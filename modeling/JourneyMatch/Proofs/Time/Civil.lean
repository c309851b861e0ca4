import Mathlib.Order.Monotone.Basic
import JourneyMatch.Time.Civil

/-
  This file shows that the dates of days come in the order of
  the days. Within a cycle the year of a day never goes down,
  so that it is enough to know where each year of the cycle
  begins and ends.

  Key definitions include:
    * `Date.Before`
    * `Date.ofMarch`
    * `Date.dayOfYear`

  Main statements:
    * `Date.monotone_yearOfCycle`
    * `Date.before_ofDays`
-/

namespace JourneyMatch

namespace Date

------------------------------------------------------------
-- The order of dates
------------------------------------------------------------

/- Whether a date comes before another. -/
def Before
    (d e : Date) : Prop :=
  d.year < e.year
    ∨ (d.year = e.year
      ∧ (d.month < e.month
        ∨ (d.month = e.month ∧ d.day < e.day)))

/-
  The date of a day in a year that begins in March, with the
  months counted from zero.
-/
def ofMarch
    (year : Int)
    (month day : Nat) : Date :=
  { year := if month < 10 then year else year + 1
    month := if month < 10 then month + 3 else month - 9
    day }

/-
  January and February, which end a year from March, belong
  to the next year of the calendar, and come first in it.
-/
theorem before_ofMarch_of_year
    {year other : Int}
    {month : Nat}
    (hYear : year < other)
    (hMonth : month ≤ 11)
    (day otherMonth otherDay : Nat) :
    (ofMarch year month day).Before
      (ofMarch other otherMonth otherDay) := by
  unfold Before ofMarch
  dsimp only
  split <;> split <;> omega

theorem before_ofMarch_of_month
    {month other : Nat}
    (hMonth : month < other)
    (hLast : other ≤ 11)
    (year : Int)
    (day otherDay : Nat) :
    (ofMarch year month day).Before
      (ofMarch year other otherDay) := by
  unfold Before ofMarch
  dsimp only
  split <;> split <;> omega

theorem before_ofMarch_of_day
    {day other : Nat}
    (hDay : day < other)
    (year : Int)
    (month : Nat) :
    (ofMarch year month day).Before
      (ofMarch year month other) :=
  .inr ⟨rfl, .inr ⟨rfl, hDay⟩⟩

------------------------------------------------------------
-- Years of a cycle
------------------------------------------------------------

theorem yearOfCycle_succ
    (day : Nat) :
    yearOfCycle day ≤ yearOfCycle (day + 1) := by
  unfold yearOfCycle
  apply Nat.div_le_div_right
  omega

/- Later days do not lie in earlier years. -/
theorem monotone_yearOfCycle :
    Monotone yearOfCycle :=
  monotone_nat_of_le_succ yearOfCycle_succ

/- The first and the last day of each year of the cycle. -/
theorem yearOfCycle_ends :
    ∀ year : Fin 400,
      yearOfCycle (daysBeforeYear year) = year
        ∧ yearOfCycle (daysBeforeYear (year + 1) - 1)
          = year := by
  decide +kernel

/- The cycle has 400 years, counted from zero. -/
theorem yearOfCycle_le
    {day : Nat}
    (hDay : day < 146097) :
    yearOfCycle day ≤ 399 := by
  have hLast : yearOfCycle 146096 = 399 := by decide
  exact hLast ▸ monotone_yearOfCycle (Nat.le_of_lt_succ hDay)

/- A day does not lie before the year in which it lies. -/
theorem daysBeforeYear_yearOfCycle_le
    {day : Nat}
    (hDay : day < 146097) :
    daysBeforeYear (yearOfCycle day) ≤ day := by
  by_contra hEarly
  have hYear := yearOfCycle_le hDay
  cases hFound : yearOfCycle day with
  | zero =>
      rw [hFound] at hEarly
      exact hEarly (Nat.zero_le day)
  | succ year =>
      rw [hFound] at hEarly hYear
      have hBefore :
          day ≤ daysBeforeYear (year + 1) - 1 := by
        omega
      have hEnd :=
        (yearOfCycle_ends ⟨year, by omega⟩).2
      have hLe := monotone_yearOfCycle hBefore
      rw [hFound, hEnd] at hLe
      exact Nat.not_succ_le_self year hLe

/- A day lies before the year that follows its own. -/
theorem lt_daysBeforeYear_succ
    {day : Nat}
    (hDay : day < 146097)
    (hNotLast : yearOfCycle day ≠ 399) :
    day < daysBeforeYear (yearOfCycle day + 1) := by
  by_contra hAfter
  have hYear := yearOfCycle_le hDay
  have hNext :=
    (yearOfCycle_ends ⟨yearOfCycle day + 1, by omega⟩).1
  have hLe := monotone_yearOfCycle (Nat.not_lt.mp hAfter)
  rw [hNext] at hLe
  exact Nat.not_succ_le_self _ hLe

/- The day of the year, counted from March and from zero. -/
def dayOfYear
    (day : Nat) : Nat :=
  day - daysBeforeYear (yearOfCycle day)

/- A year has no more than 366 days. -/
theorem dayOfYear_le
    {day : Nat}
    (hDay : day < 146097) :
    dayOfYear day ≤ 365 := by
  unfold dayOfYear
  by_cases hLast : yearOfCycle day = 399
  · have hBefore : daysBeforeYear 399 = 145731 := by decide
    rw [hLast, hBefore]
    omega
  · have hNext := lt_daysBeforeYear_succ hDay hLast
    have hStep :
        daysBeforeYear (yearOfCycle day + 1)
          ≤ daysBeforeYear (yearOfCycle day) + 366 := by
      unfold daysBeforeYear
      omega
    omega

------------------------------------------------------------
-- Dates of days
------------------------------------------------------------

/- The day of the cycle in which a day lies. -/
def dayOfCycle
    (days : Int) : Nat :=
  ((days + epoch) % cycle).toNat

theorem dayOfCycle_lt
    (days : Int) :
    dayOfCycle days < 146097 := by
  unfold dayOfCycle cycle
  omega

/- The month of a day of the year, counted from March. -/
def monthOfDay
    (dayOfYear : Nat) : Nat :=
  (5 * dayOfYear + 2) / 153

theorem ofDays_eq
    (days : Int) :
    ofDays days
      = ofMarch
        (yearOfCycle (dayOfCycle days)
          + (days + epoch) / cycle * 400)
        (monthOfDay (dayOfYear (dayOfCycle days)))
        (dayOfYear (dayOfCycle days)
          - (153 * monthOfDay (dayOfYear (dayOfCycle days)) + 2)
            / 5
          + 1) :=
  rfl

/- A year has no more than twelve months. -/
theorem monthOfDay_le
    (days : Int) :
    monthOfDay (dayOfYear (dayOfCycle days)) ≤ 11 := by
  have hDay := dayOfYear_le (dayOfCycle_lt days)
  unfold monthOfDay
  omega

/- Of two days, the earlier has the earlier date. -/
theorem before_ofDays
    {first second : Int}
    (hDays : first < second) :
    (ofDays first).Before (ofDays second) := by
  have hFirst := daysBeforeYear_yearOfCycle_le (dayOfCycle_lt first)
  have hMonth := monthOfDay_le first
  have hLast := monthOfDay_le second
  have hYear := yearOfCycle_le (dayOfCycle_lt first)
  rw [ofDays_eq, ofDays_eq]
  have hCycles :
      (first + epoch) / cycle ≤ (second + epoch) / cycle := by
    unfold cycle
    omega
  rcases Int.lt_or_eq_of_le hCycles with hCycle | hCycle
  · apply before_ofMarch_of_year _ hMonth
    omega
  · rw [hCycle]
    have hDay : dayOfCycle first < dayOfCycle second := by
      unfold dayOfCycle cycle at *
      omega
    rcases Nat.lt_or_eq_of_le
        (monotone_yearOfCycle (Nat.le_of_lt hDay)) with
      hEarlier | hSame
    · apply before_ofMarch_of_year _ hMonth
      omega
    · have hOfYear :
          dayOfYear (dayOfCycle first)
            < dayOfYear (dayOfCycle second) := by
        unfold dayOfYear
        rw [← hSame]
        omega
      rw [hSame]
      have hMonths :
          monthOfDay (dayOfYear (dayOfCycle first))
            ≤ monthOfDay (dayOfYear (dayOfCycle second)) := by
        unfold monthOfDay
        omega
      rcases Nat.lt_or_eq_of_le hMonths with hBefore | hEqual
      · exact before_ofMarch_of_month hBefore hLast _ _ _
      · rw [hEqual]
        apply before_ofMarch_of_day
        unfold monthOfDay at *
        omega

/- Days and months of a date are counted from one. -/
theorem one_le_day_ofDays
    (days : Int) :
    1 ≤ (ofDays days).month ∧ 1 ≤ (ofDays days).day := by
  rw [ofDays_eq]
  unfold ofMarch
  dsimp only
  constructor
  · split <;> omega
  · omega

/- No month has a number of more than two digits, nor a day. -/
theorem day_ofDays_lt
    (days : Int) :
    (ofDays days).month < 100 ∧ (ofDays days).day < 100 := by
  have hDay := dayOfYear_le (dayOfCycle_lt days)
  have hMonth := monthOfDay_le days
  rw [ofDays_eq]
  unfold ofMarch
  dsimp only
  constructor
  · split <;> omega
  · unfold monthOfDay
    omega

end Date

end JourneyMatch
