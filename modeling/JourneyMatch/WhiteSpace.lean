/-
  This file defines the characters that are white space in
  any script, and the removal of them from both ends of a
  text.

  Key definitions include:
    * `isWhiteSpace`
    * `trimmed`
-/

namespace JourneyMatch

/- The characters with the property White_Space. -/
def isWhiteSpace
    (c : Char) : Bool :=
  let n := c.toNat
  (0x09 ≤ n && n ≤ 0x0d) || n = 0x20 || n = 0x85 ||
    n = 0xa0 || n = 0x1680 || (0x2000 ≤ n && n ≤ 0x200a) ||
    n = 0x2028 || n = 0x2029 || n = 0x202f || n = 0x205f ||
    n = 0x3000

/- The white space of ASCII is among it. -/
example :
    [' ', '\t', '\n', '\r', '\x0b', '\x0c'].all
      isWhiteSpace := by
  decide

/- Text without the white space at its end. -/
def withoutEnd
    (cs : List Char) : List Char :=
  (cs.reverse.dropWhile isWhiteSpace).reverse

/- Text without the white space at both ends. -/
def trimmed
    (cs : List Char) : List Char :=
  withoutEnd (cs.dropWhile isWhiteSpace)

end JourneyMatch
