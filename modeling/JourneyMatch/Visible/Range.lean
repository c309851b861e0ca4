/-
  This file defines ranges of characters.

  Key definitions include:
    * `CodeRange`
    * `liesIn`
-/

namespace JourneyMatch

/- The numbers of the first and the last character. -/
abbrev CodeRange :=
  Nat × Nat

/- Whether a character lies in one of some ranges. -/
def liesIn
    (ranges : List CodeRange)
    (c : Char) : Bool :=
  ranges.any fun range =>
    range.1 ≤ c.toNat && c.toNat ≤ range.2

end JourneyMatch
