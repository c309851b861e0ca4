import JourneyMatch.Binary64.Basic

/-
  This file finds the shortest decimal that reads back as a
  given double, and lays it out as text.

  A decimal reads back as a double when it lies in the
  interval of the numbers that round to it. The interval's
  ends belong to it exactly when the significand is even.

  Key definitions include:
    * `Decimal`
    * `Binary64.Interval`
    * `Binary64.interval`
    * `Binary64.shortest`
    * `Decimal.layout`
    * `Binary64.text`
-/

namespace JourneyMatch

------------------------------------------------------------
-- Decimals
------------------------------------------------------------

/- The number `digits * 10 ^ exponent`. -/
structure Decimal where
  digits : Nat
  exponent : Int
  deriving DecidableEq, Repr

namespace Decimal

/- A decimal as a numerator and a denominator. -/
def ratio
    (d : Decimal) : Nat × Nat :=
  (d.digits * tenTo d.exponent.toNat, tenTo (-d.exponent).toNat)

/- Moves trailing zeros of the digits into the exponent. -/
def strip :
    Nat → Decimal → Decimal
  | 0, d => d
  | fuel + 1, d =>
      if d.digits % 10 = 0 ∧ d.digits ≠ 0 then
        strip fuel ⟨d.digits / 10, d.exponent + 1⟩
      else
        d

end Decimal

/- Whether one quotient is at most another. -/
def ratioLe
    (a b : Nat × Nat) : Bool :=
  a.1 * b.2 ≤ b.1 * a.2

/- The distance of two quotients. -/
def ratioDistance
    (a b : Nat × Nat) : Nat × Nat :=
  let x := a.1 * b.2
  let y := b.1 * a.2
  (max x y - min x y, a.2 * b.2)

------------------------------------------------------------
-- The numbers that round to a double
------------------------------------------------------------

namespace Binary64

/-
  The numbers between two quotients, with or without the
  quotients themselves.
-/
structure Interval where
  low : Nat × Nat
  high : Nat × Nat
  closed : Bool

/- Membership in an interval. -/
def Interval.holds
    (i : Interval)
    (x : Nat × Nat) : Bool :=
  if i.closed then
    ratioLe i.low x && ratioLe x i.high
  else
    !ratioLe x i.low && !ratioLe i.high x

/-
  The numbers that round to a positive magnitude. Below a
  power of two the doubles lie twice as close, so that the
  interval is shorter on that side.
-/
def interval
    (bits : Nat) : Interval :=
  let (m, q) := parts bits
  let below :=
    if m = twoTo 52 ∧ -1074 < q then 4 * m - 1 else 4 * m - 2
  { low := dyadic below (q - 2)
    high := dyadic (4 * m + 2) (q - 2)
    closed := m % 2 = 0 }

------------------------------------------------------------
-- The shortest decimal
------------------------------------------------------------

/- The number of decimal digits of a natural. -/
def digitCount
    (n : Nat) : Nat :=
  (Nat.toDigits 10 n).length

/-
  The exponent of the leading decimal digit of a positive
  quotient.
-/
def leadingExponent
    (x : Nat × Nat) : Int :=
  if x.2 ≤ x.1 then
    (digitCount (x.1 / x.2) : Int) - 1
  else
    let places := digitCount (x.2 / x.1)
    if x.2 ≤ x.1 * tenTo (places - 1) then
      1 - (places : Int)
    else
      -(places : Int)

/-
  The decimal of the interval on the grid of the given
  exponent that is nearest to `x`. It is one of the two
  neighbours of `x`; at equal distance the even one is taken.
-/
def onGrid?
    (i : Interval)
    (x : Nat × Nat)
    (exponent : Int) : Option Decimal :=
  let scaled :=
    (x.1 * tenTo (-exponent).toNat, x.2 * tenTo exponent.toNat)
  let down : Decimal := ⟨scaled.1 / scaled.2, exponent⟩
  let up : Decimal := ⟨scaled.1 / scaled.2 + 1, exponent⟩
  match i.holds down.ratio, i.holds up.ratio with
  | false, false => none
  | true, false => some down
  | false, true => some up
  | true, true =>
      let toDown := ratioDistance x down.ratio
      let toUp := ratioDistance x up.ratio
      if !ratioLe toUp toDown then some down
      else if !ratioLe toDown toUp then some up
      else if down.digits % 2 = 0 then some down
      else some up

/-
  Tries the grids from the coarsest on. A grid of seventeen
  digits always has a decimal in the interval.
-/
def firstGrid
    (i : Interval)
    (x : Nat × Nat)
    (leading : Int) :
    Nat → Nat → Decimal
  | 0, _ => ⟨0, 0⟩
  | fuel + 1, count =>
      match onGrid? i x (leading + 1 - count) with
      | some d => d.strip 20
      | none => firstGrid i x leading fuel (count + 1)

/-
  The decimal with the fewest digits among those that read
  back as a positive magnitude, and the nearest of these.
-/
def shortest
    (bits : Nat) : Decimal :=
  let x := ratio bits
  firstGrid (interval bits) x (leadingExponent x) 17 1

end Binary64

------------------------------------------------------------
-- Layout
------------------------------------------------------------

/-
  How a positive decimal is written: with a point and at
  least one digit on each side of it while its leading digit
  lies between the fifth place after the point and the
  sixteenth before it, and otherwise with an exponent that
  always has its sign.
-/
def Decimal.layout
    (d : Decimal) : List Char :=
  let digits := Nat.toDigits 10 d.digits
  let count : Int := digits.length
  let point := count + d.exponent
  let leading := point - 1
  if leading < -5 ∨ 15 < leading then
    let sign := if leading < 0 then '-' else '+'
    let exponent := sign :: Nat.toDigits 10 leading.natAbs
    match digits with
    | [] => []
    | [first] => first :: 'e' :: exponent
    | first :: rest => first :: '.' :: (rest ++ 'e' :: exponent)
  else if point ≤ 0 then
    '0' :: '.' :: (List.replicate (-point).toNat '0' ++ digits)
  else if count ≤ point then
    digits ++ List.replicate (point - count).toNat '0' ++ ['.', '0']
  else
    digits.take point.toNat ++ '.' :: digits.drop point.toNat

/- The text of a double; a zero keeps its sign. -/
def Binary64.text
    (x : Binary64) : List Char :=
  let magnitude :=
    if x.bits = 0 then
      ['0', '.', '0']
    else
      (Binary64.shortest x.bits).layout
  if x.negative then '-' :: magnitude else magnitude

end JourneyMatch
