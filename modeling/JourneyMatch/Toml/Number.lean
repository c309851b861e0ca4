import JourneyMatch.Binary64.Basic
import JourneyMatch.Json.Text
import JourneyMatch.Toml.Scan

/-
  This file defines the numbers of TOML. An integer is read
  with its value, and a float only as to whether it is one.

  Key definitions include:
    * `readDigits`
    * `readInteger`
    * `readFloat`
-/

namespace JourneyMatch

namespace Toml

------------------------------------------------------------
-- Digits
------------------------------------------------------------

/- The value of a digit in a base of at most sixteen. -/
def digitValue?
    (base : Nat)
    (c : Char) : Option Nat :=
  (Quoted.hexValue? c).filter (· < base)

/-
  Reads digits after others. An underscore may stand before a
  digit, and before nothing else.
-/
def readMoreDigits
    (base : Nat) : Scan (List Nat)
  | [] => some ([], [])
  | ['_'] => none
  | '_' :: c :: rest => do
      let digit ← digitValue? base c
      let (digits, rest) ← readMoreDigits base rest
      some (digit :: digits, rest)
  | c :: rest =>
      match digitValue? base c with
      | none => some ([], c :: rest)
      | some digit => do
          let (digits, rest) ← readMoreDigits base rest
          some (digit :: digits, rest)

/- Reads digits, of which there is at least one. -/
def readDigits
    (base : Nat) : Scan (List Nat)
  | [] => none
  | c :: rest => do
      let digit ← digitValue? base c
      let (digits, rest) ← readMoreDigits base rest
      some (digit :: digits, rest)

/- The number of digits. -/
def numeral
    (base : Nat)
    (digits : List Nat) : Nat :=
  digits.foldl (base * · + ·) 0

/- Reads a sign, if there is one; true is a minus. -/
def readSign : List Char → Bool × List Char
  | '-' :: rest => (true, rest)
  | '+' :: rest => (false, rest)
  | cs => (false, cs)

/- Reads decimal digits, the first of which is a lone zero. -/
def readWhole : Scan (List Nat)
  | '0' :: rest => some ([0], rest)
  | cs => readDigits 10 cs

------------------------------------------------------------
-- Integers
------------------------------------------------------------

/- An integer of 64 bits with a sign. -/
def signed64?
    (i : Int) : Option Int :=
  if -(twoTo 63 : Int) ≤ i ∧ i < (twoTo 63 : Int) then
    some i
  else
    none

/- Reads the digits of an integer in a base. -/
def readBased
    (base : Nat) : Scan Int := fun cs => do
  let (digits, rest) ← readDigits base cs
  let i ← signed64? (numeral base digits)
  some (i, rest)

/- Reads an integer. Only a decimal one has a sign. -/
def readInteger : Scan Int
  | '0' :: 'x' :: rest => readBased 16 rest
  | '0' :: 'o' :: rest => readBased 8 rest
  | '0' :: 'b' :: rest => readBased 2 rest
  | cs => do
      let (negative, rest) := readSign cs
      let (digits, rest) ← readWhole rest
      let n : Int := numeral 10 digits
      let i ← signed64? (if negative then -n else n)
      some (i, rest)

------------------------------------------------------------
-- Floats
------------------------------------------------------------

/- Reads an exponent. -/
def readExponent : Scan Int
  | c :: rest => do
      if c = 'e' || c = 'E' then
        let (negative, rest) := readSign rest
        let (digits, rest) ← readDigits 10 rest
        let n : Int := numeral 10 digits
        some (if negative then -n else n, rest)
      else
        none
  | [] => none

/- Reads what makes a number a float: the digits after the
  point, if any, and the exponent, which is needed where
  there is no point. -/
def readFraction : Scan (List Nat × Int)
  | '.' :: rest => do
      let (digits, rest) ← readDigits 10 rest
      match readExponent rest with
      | some (exponent, rest) => some ((digits, exponent), rest)
      | none => some ((digits, 0), rest)
  | cs => do
      let (exponent, rest) ← readExponent cs
      some (([], exponent), rest)

/-
  Whether a decimal is too large for a double. Its digits
  decide it alone unless they end at the 309th place.
-/
def tooLarge
    (digits : List Nat)
    (exponent : Int) : Bool :=
  let digits := digits.dropWhile (· = 0)
  let places := digits.length + exponent
  if digits = [] then false
  else if places < 309 then false
  else if 309 < places then true
  else
    Binary64.beyond ≤
      Binary64.ofRatio
        (numeral 10 digits * tenTo exponent.toNat)
        (tenTo (-exponent).toNat)

/- Reads a name for a float that no digits stand for. -/
def readNamedFloat : Scan Unit
  | 'i' :: 'n' :: 'f' :: rest => some ((), rest)
  | 'n' :: 'a' :: 'n' :: rest => some ((), rest)
  | _ => none

/-
  Reads a float. One that is too large is refused, unless it
  is negative.
-/
def readFloat : Scan Unit := fun cs => do
  let (negative, rest) := readSign cs
  match readNamedFloat rest with
  | some (_, rest) => some ((), rest)
  | none =>
      let (whole, rest) ← readWhole rest
      let ((fraction, exponent), rest) ← readFraction rest
      let large :=
        tooLarge (whole ++ fraction)
          (exponent - fraction.length)
      if large && !negative then none else some ((), rest)

end Toml

end JourneyMatch
