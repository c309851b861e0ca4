import JourneyMatch.Observation.Event
import JourneyMatch.WhiteSpace

/-
  This file defines the lines of an input of bytes, and what
  a line is: blank, malformed, or an event.

  Key definitions include:
    * `linesOf`
    * `Line`
    * `Line.ofBytes`
-/

namespace JourneyMatch

------------------------------------------------------------
-- Lines
------------------------------------------------------------

/- The byte that ends a line. -/
def newline : UInt8 :=
  10

/-
  The lines of an input. A line ends at a newline or at the
  end of the input; nothing after the last newline is no
  line.
-/
def linesOf : List UInt8 → List (List UInt8)
  | [] => []
  | byte :: rest =>
      if byte = newline then
        [] :: linesOf rest
      else
        match linesOf rest with
        | [] => [[byte]]
        | line :: lines => (byte :: line) :: lines

example : linesOf [1, 10, 10, 2] = [[1], [], [2]] := by
  decide

example : linesOf [1, 10] = [[1]] := by
  decide

------------------------------------------------------------
-- What a line is
------------------------------------------------------------

/- What a line of the input is. -/
inductive Line where
  | blank
  | malformed
  | event (event : Event)

namespace Line

/- What a text is: white space around it does not count. -/
def ofText
    (text : String) : Line :=
  match trimmed text.toList with
  | [] => .blank
  | cs =>
      match Event.parse (String.ofList cs) with
      | .ok e => .event e
      | .error _ => .malformed

/-
  What the bytes of a line are: malformed if they are not
  UTF-8, whatever else they hold.
-/
def ofBytes
    (bytes : List UInt8) : Line :=
  match String.fromUTF8? (ByteArray.mk bytes.toArray) with
  | some text => ofText text
  | none => .malformed

end Line

end JourneyMatch
