/-
  This file defines the powers of two and of ten.

  Key definitions include:
    * `twoTo`
    * `tenTo`
-/

namespace JourneyMatch

/- A power of two. -/
def twoTo
    (n : Nat) : Nat :=
  Nat.pow 2 n

/- A power of ten. -/
def tenTo
    (n : Nat) : Nat :=
  Nat.pow 10 n

end JourneyMatch
