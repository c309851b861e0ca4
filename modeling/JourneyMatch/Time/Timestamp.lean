import JourneyMatch.Time.Civil
import JourneyMatch.Time.Moment

/-
  This file defines the text of an instant: the date and the
  time of day in universal time, down to the millisecond, in
  columns of fixed width. For the years 0 to 9999 the order
  of the texts is the order of the instants.

  Key definitions include:
    * `padded`
    * `yearText`
    * `timestamp`
-/

namespace JourneyMatch

/- A natural in decimal, with zeros in front up to a width. -/
def padded
    (width n : Nat) : List Char :=
  let digits := Nat.toDigits 10 n
  List.replicate (width - digits.length) '0' ++ digits

/- A year in four columns, of which a sign takes one. -/
def yearText
    (year : Int) : List Char :=
  if year < 0 then
    '-' :: padded 3 year.natAbs
  else
    padded 4 year.natAbs

/- A date, as in `2024-03-07`. -/
def dateText
    (d : Date) : List Char :=
  yearText d.year ++ '-' :: padded 2 d.month
    ++ '-' :: padded 2 d.day

/- The number of milliseconds in a day. -/
def millisPerDay : Nat :=
  86400000

/- A time of day in milliseconds, as in `09:05:01.042`. -/
def timeText
    (millis : Nat) : List Char :=
  padded 2 (millis / 3600000)
    ++ ':' :: padded 2 (millis / 60000 % 60)
    ++ ':' :: padded 2 (millis / 1000 % 60)
    ++ '.' :: padded 3 (millis % 1000)

/- The text of a number of milliseconds from 1970-01-01. -/
def timestampOfMillis
    (millis : Int) : String :=
  String.ofList
    (dateText (Date.ofDays (millis / millisPerDay))
      ++ 'T' :: timeText (millis % millisPerDay).toNat
      ++ ['Z'])

/- The text of an instant. -/
def timestamp
    (t : Instant) : String :=
  timestampOfMillis t.millis

end JourneyMatch
