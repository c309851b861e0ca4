/-
  This file defines the standard base64 text of bytes, without
  padding.

  Key definitions include:
    * `Base64.digit`
    * `Base64.encode`
-/

namespace JourneyMatch

namespace Base64

/-
  The digit of a value below 64: the capital letters, the
  small letters, the decimal digits, the plus and the slash.
-/
def digit
    (n : Nat) : Char :=
  if n < 26 then Char.ofNat (n + 'A'.toNat)
  else if n < 52 then Char.ofNat (n - 26 + 'a'.toNat)
  else if n < 62 then Char.ofNat (n - 52 + '0'.toNat)
  else if n = 62 then '+'
  else '/'

/-
  Three bytes become four digits; one or two bytes at the end
  become two or three.
-/
def encode : List UInt8 → List Char
  | [] => []
  | [a] =>
      [digit (a.toNat / 4), digit (a.toNat % 4 * 16)]
  | [a, b] =>
      [digit (a.toNat / 4),
        digit (a.toNat % 4 * 16 + b.toNat / 16),
        digit (b.toNat % 16 * 4)]
  | a :: b :: c :: rest =>
      digit (a.toNat / 4)
        :: digit (a.toNat % 4 * 16 + b.toNat / 16)
        :: digit (b.toNat % 16 * 4 + c.toNat / 64)
        :: digit (c.toNat % 64)
        :: encode rest

end Base64

end JourneyMatch
