import JourneyMatch.Time.Timestamp

/-
  This file defines the keys of tasks: the due time as a
  timestamp, two colons, and a tag that tells apart the tasks
  due in the same millisecond. Tags are drawn from a source
  and never repeat.

  Key definitions include:
    * `taskKey`
    * `dueBound`
    * `TagSource`
    * `TagSource.draw`
    * `countedTag`
-/

namespace JourneyMatch

/- What stands between the timestamp and the tag. -/
def tagSeparator : String :=
  "::"

/- The key of a task due at an instant. -/
def taskKey
    (due : Instant)
    (tag : String) : String :=
  timestamp due ++ tagSeparator ++ tag

/- The tasks whose keys sort below this text are due. -/
def dueBound
    (now : Instant) : String :=
  timestamp now

------------------------------------------------------------
-- Tags
------------------------------------------------------------

/-
  A source of tags: the tag of each number, and how many have
  been drawn.
-/
structure TagSource where
  tag : Nat → String
  drawn : Nat

namespace TagSource

/- The next tag. -/
def next
    (s : TagSource) : String :=
  s.tag s.drawn

/- The source after a tag has been drawn. -/
def draw
    (s : TagSource) : TagSource :=
  { s with drawn := s.drawn + 1 }

end TagSource

/- A natural in hexadecimal, with zeros up to a width. -/
def paddedHex
    (width n : Nat) : List Char :=
  let digits := Nat.toDigits 16 n
  List.replicate (width - digits.length) '0' ++ digits

/- What every counted tag begins with. -/
def countedTagStart : String :=
  "00000000-0000-7000-8000-"

/-
  A tag in the form of a time-ordered unique identifier, made
  of a count. The tag of a greater count sorts higher.
-/
def countedTag
    (n : Nat) : String :=
  countedTagStart ++ String.ofList (paddedHex 12 n)

/- A source of counted tags. -/
def TagSource.counted : TagSource :=
  ⟨countedTag, 0⟩

end JourneyMatch
