import JourneyMatch.Time.Civil
import JourneyMatch.Toml.Number

/-
  This file defines the dates and times of TOML, as to
  whether a text is one: a date, a time of day, or both, and
  then possibly an offset.

  Key definitions include:
    * `readDate`
    * `readTime`
    * `readDateTime`
-/

namespace JourneyMatch

namespace Toml

/- Reads a number of a fixed count of digits. -/
def readFixed
    (width low high : Nat) : Scan Nat := fun cs => do
  let digits ← (cs.take width).mapM (digitValue? 10)
  let n := numeral 10 digits
  if digits.length = width ∧ low ≤ n ∧ n ≤ high then
    some (n, cs.drop width)
  else
    none

/- Reads one character. -/
def readChar
    (wanted : Char) : Scan Unit
  | c :: rest => if c = wanted then some ((), rest) else none
  | [] => none

/- Reads a date, which has to be one of the calendar. -/
def readDate : Scan Unit := fun cs => do
  let (year, rest) ← readFixed 4 0 9999 cs
  let (_, rest) ← readChar '-' rest
  let (month, rest) ← readFixed 2 1 12 rest
  let (_, rest) ← readChar '-' rest
  let (day, rest) ← readFixed 2 1 31 rest
  let date : Date := ⟨year, month, day⟩
  if Date.ofDays date.days = date then
    some ((), rest)
  else
    none

/- Reads the part of a second, if there is one. -/
def skipSecondPart : List Char → List Char
  | '.' :: rest =>
      match rest.takeWhile Char.isDigit with
      | [] => '.' :: rest
      | digits => rest.drop digits.length
  | cs => cs

/- Reads a time of day. The minute may have a leap second. -/
def readTime : Scan Unit := fun cs => do
  let (_, rest) ← readFixed 2 0 23 cs
  let (_, rest) ← readChar ':' rest
  let (_, rest) ← readFixed 2 0 59 rest
  let (_, rest) ← readChar ':' rest
  let (_, rest) ← readFixed 2 0 60 rest
  some ((), skipSecondPart rest)

/- Reads an offset. -/
def readOffset : Scan Unit
  | c :: rest => do
      if c = 'Z' || c = 'z' then
        some ((), rest)
      else if c = '+' || c = '-' then
        let (_, rest) ← readFixed 2 0 23 rest
        let (_, rest) ← readChar ':' rest
        let (_, rest) ← readFixed 2 0 59 rest
        some ((), rest)
      else
        none
  | [] => none

/- Reads what follows a date: a time, and then an offset. -/
def readTimeOfDate : Scan Unit
  | c :: rest => do
      if c = 'T' || c = 't' || c = ' ' then
        let (_, rest) ← readTime rest
        match readOffset rest with
        | some (_, rest) => some ((), rest)
        | none => some ((), rest)
      else
        none
  | [] => none

/- Reads a date, a time, or both. -/
def readDateTime : Scan Unit := fun cs =>
  match readDate cs with
  | some (_, rest) =>
      match readTimeOfDate rest with
      | some (_, rest) => some ((), rest)
      | none => some ((), rest)
  | none => readTime cs

end Toml

end JourneyMatch
