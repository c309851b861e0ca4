/-
  This file defines the dates of the proleptic Gregorian
  calendar and their count in days from 1970-01-01.

  The calendar repeats after 400 years, and a year is best
  begun in March, so that the leap day ends it.

  Key definitions include:
    * `Date`
    * `Date.ofDays`
    * `Date.days`
-/

namespace JourneyMatch

/- A day of a month of a year. -/
structure Date where
  year : Int
  month : Nat
  day : Nat
  deriving DecidableEq, Repr

namespace Date

/- The number of days in 400 years. -/
def cycle : Int :=
  146097

/- The days from the first of March of year 0 to 1970. -/
def epoch : Int :=
  719468

/-
  The year of the cycle, counted from March, in which the
  given day of the cycle lies.
-/
def yearOfCycle
    (day : Nat) : Nat :=
  (day - day / 1460 + day / 36524 - day / 146096) / 365

/- The days of the cycle before the given year of it. -/
def daysBeforeYear
    (year : Nat) : Nat :=
  365 * year + year / 4 - year / 100

/- The date of a day, counted from 1970-01-01. -/
def ofDays
    (days : Int) : Date :=
  let shifted := days + epoch
  let day := (shifted % cycle).toNat
  let year := yearOfCycle day
  let dayOfYear := day - daysBeforeYear year
  let month := (5 * dayOfYear + 2) / 153
  let yearFromMarch : Int := year + shifted / cycle * 400
  { year :=
      if month < 10 then yearFromMarch else yearFromMarch + 1
    month := if month < 10 then month + 3 else month - 9
    day := dayOfYear - (153 * month + 2) / 5 + 1 }

/- The days from 1970-01-01 to a date. -/
def days
    (d : Date) : Int :=
  let yearFromMarch := if d.month ≤ 2 then d.year - 1 else d.year
  let month := if d.month ≤ 2 then d.month + 9 else d.month - 3
  let year := (yearFromMarch % 400).toNat
  let dayOfYear := (153 * month + 2) / 5 + d.day - 1
  yearFromMarch / 400 * cycle
    + (daysBeforeYear year + dayOfYear : Nat) - epoch

end Date

end JourneyMatch
