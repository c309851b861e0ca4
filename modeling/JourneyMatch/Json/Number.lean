import JourneyMatch.Binary64.Shortest

/-
  This file defines the numbers of JSON and their two forms:
  a literal, as it stands in a text, and a number, as it is
  kept. A literal of digits alone that fits 64 bits stays an
  integer; every other literal is a double.

  Key definitions include:
    * `Number`
    * `Literal`
    * `Literal.number?`
    * `Number.text`
-/

namespace JourneyMatch

------------------------------------------------------------
-- The types
------------------------------------------------------------

/-
  A number: an integer from the least signed to the greatest
  unsigned 64-bit one, or a double.
-/
inductive Number where
  | integer (value : Int)
  | double (value : Binary64)
  deriving DecidableEq

/-
  A number as it is written. The digits are given by value;
  the exponent, where there is one, as a signed number.
-/
structure Literal where
  negative : Bool
  whole : List Nat
  fraction : List Nat
  exponent : Option Int
  pointed : Bool
  deriving DecidableEq, Repr

------------------------------------------------------------
-- From a literal
------------------------------------------------------------

/- The greatest significand that is kept while reading. -/
def greatestWord : Nat :=
  twoTo 64 - 1

/-
  Appends digits to a significand until the next one would
  not fit; the second result counts the digits left over.
-/
def appendDigits :
    Nat → List Nat → Nat × Nat
  | significand, [] => (significand, 0)
  | significand, digit :: digits =>
      if significand * 10 + digit ≤ greatestWord then
        appendDigits (significand * 10 + digit) digits
      else
        (significand, digits.length + 1)

/-
  The number of digits alone, none of which is left over. A
  negative zero, and a negative number below the signed
  range, are doubles.
-/
def wholeNumber?
    (negative : Bool)
    (significand : Nat) : Option Number :=
  if negative then
    if significand = 0 ∨ twoTo 63 < significand then
      (Binary64.scale significand 0).bind fun bits =>
        (Binary64.ofBits? true bits).map .double
    else
      some (.integer (-(significand : Int)))
  else
    some (.integer significand)

/-
  The number that a literal stands for. There is none when it
  is too large for a double.
-/
def Literal.number?
    (l : Literal) : Option Number :=
  let (significand, dropped) := appendDigits 0 l.whole
  if dropped = 0 ∧ !l.pointed ∧ l.exponent = none then
    wholeNumber? l.negative significand
  else
    let (significand, ignored) :=
      appendDigits significand l.fraction
    let kept : Int := (l.fraction.length : Int) - ignored
    let exponent := (dropped : Int) - kept + l.exponent.getD 0
    (Binary64.scale significand exponent).bind fun bits =>
      (Binary64.ofBits? l.negative bits).map .double

------------------------------------------------------------
-- To text
------------------------------------------------------------

/- An integer in decimal, with a sign if it is negative. -/
def integerText
    (value : Int) : List Char :=
  if value < 0 then
    '-' :: Nat.toDigits 10 value.natAbs
  else
    Nat.toDigits 10 value.natAbs

/- The text of a number. -/
def Number.text :
    Number → List Char
  | .integer value => integerText value
  | .double value => value.text

end JourneyMatch
