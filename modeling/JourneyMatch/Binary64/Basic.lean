import JourneyMatch.Power

/-
  This file defines the finite double-precision numbers and
  the arithmetic that reading one from digits needs, carried
  out exactly on naturals and rounded once per operation.

  A magnitude is held as the bits of a double without its
  sign, so that magnitudes compare as naturals do.

  Key definitions include:
    * `Binary64`
    * `Binary64.parts`
    * `Binary64.ratio`
    * `Binary64.halfEven`
    * `Binary64.ofRatio`
    * `Binary64.product`
    * `Binary64.quotient`
    * `Binary64.scale`
-/

namespace JourneyMatch

------------------------------------------------------------
-- The type
------------------------------------------------------------

/- The least bits that stand for no finite magnitude. -/
def Binary64.beyond : Nat :=
  2047 * twoTo 52

/-
  A finite double: a sign, and the exponent and fraction
  bits read as one natural.
-/
structure Binary64 where
  negative : Bool
  bits : Nat
  finite : bits < Binary64.beyond
  deriving DecidableEq

namespace Binary64

/- Zero with a sign. -/
def zero
    (negative : Bool) : Binary64 :=
  ⟨negative, 0, by decide⟩

/- The double with the given bits, if they are finite. -/
def ofBits?
    (negative : Bool)
    (bits : Nat) : Option Binary64 :=
  if h : bits < beyond then
    some ⟨negative, bits, h⟩
  else
    none

------------------------------------------------------------
-- Magnitudes as exact numbers
------------------------------------------------------------

/-
  The pair `(m, q)` for which the magnitude is `m * 2 ^ q`.
-/
def parts
    (bits : Nat) : Nat × Int :=
  let exponent : Nat := bits / twoTo 52
  let fraction : Nat := bits % twoTo 52
  if exponent = 0 then
    (fraction, -1074)
  else
    (twoTo 52 + fraction, (exponent : Int) - 1075)

/- `m * 2 ^ q` as a numerator and a denominator. -/
def dyadic
    (m : Nat)
    (q : Int) : Nat × Nat :=
  (m * twoTo q.toNat, twoTo (-q).toNat)

/- The magnitude as a numerator and a denominator. -/
def ratio
    (bits : Nat) : Nat × Nat :=
  dyadic (parts bits).1 (parts bits).2

------------------------------------------------------------
-- Rounding
------------------------------------------------------------

/-
  The natural nearest to a quotient; a half goes to the even
  neighbour.
-/
def halfEven
    (num den : Nat) : Nat :=
  let floor := num / den
  let rest := num % den
  if 2 * rest < den then
    floor
  else if den < 2 * rest then
    floor + 1
  else
    floor + floor % 2

/-
  The exponent of the last place of the double nearest to a
  positive quotient.
-/
def lastPlace
    (num den : Nat) : Int :=
  let guess : Int := (num.log2 : Int) - den.log2 - 52
  let top := guess + 52
  let low := num * twoTo (-top).toNat < den * twoTo top.toNat
  max (if low then guess - 1 else guess) (-1074)

/-
  The bits of the double nearest to a quotient. They are not
  below `beyond` when the quotient is too large for one.
-/
def ofRatio
    (num den : Nat) : Nat :=
  if num = 0 then
    0
  else
    let q := lastPlace num den
    let m :=
      halfEven (num * twoTo (-q).toNat) (den * twoTo q.toNat)
    (q + 1074).toNat * twoTo 52 + m

------------------------------------------------------------
-- Arithmetic
------------------------------------------------------------

/- The rounded product of two magnitudes. -/
def product
    (a b : Nat) : Nat :=
  ofRatio
    ((ratio a).1 * (ratio b).1)
    ((ratio a).2 * (ratio b).2)

/- The rounded quotient of two magnitudes. -/
def quotient
    (a b : Nat) : Nat :=
  ofRatio
    ((ratio a).1 * (ratio b).2)
    ((ratio a).2 * (ratio b).1)

/- The double nearest to a power of ten. -/
def powerOfTen
    (k : Nat) : Nat :=
  ofRatio (tenTo k) 1

/-
  Divides by the greatest power of ten that is a double
  while the exponent is too low for a single division.
-/
def shrink :
    Nat → Nat → Int → Nat × Int
  | 0, bits, exponent => (bits, exponent)
  | fuel + 1, bits, exponent =>
      if exponent < -308 ∧ bits ≠ 0 then
        shrink fuel (quotient bits (powerOfTen 308))
          (exponent + 308)
      else
        (bits, exponent)

/-
  The magnitude of `significand * 10 ^ exponent`, rounded
  when the significand becomes a double and again at each
  multiplication or division by a power of ten. There is
  none when the number is too large.
-/
def scale
    (significand : Nat)
    (exponent : Int) : Option Nat :=
  let (bits, rest) :=
    shrink exponent.natAbs (ofRatio significand 1) exponent
  if bits = 0 then
    some 0
  else if 308 < rest then
    none
  else
    let scaled :=
      if 0 ≤ rest then
        product bits (powerOfTen rest.toNat)
      else
        quotient bits (powerOfTen (-rest).toNat)
    if scaled < beyond then some scaled else none

end Binary64

end JourneyMatch
