import JourneyMatch.Observation.Notification

/-
  This file defines the output of notifications: one line of
  JSON for each, up to the first that the output refuses.

  Key definitions include:
    * `noticeCapacity`
    * `Outlet`
    * `Outlet.take?`
    * `Notices.run`
    * `Notices.written`
    * `Notices.output`
-/

namespace JourneyMatch

/- The number of notifications that wait by default. -/
def defaultCapacity : Nat :=
  256

/-
  The number of notifications that may wait to be written;
  zero asks for the default.
-/
def noticeCapacity
    (asked : Nat) : Nat :=
  if asked = 0 then defaultCapacity else asked

------------------------------------------------------------
-- The output
------------------------------------------------------------

/-
  An output of text: what it has taken so far, and how many
  lines it takes before it fails. Without a number, it never
  fails.
-/
structure Outlet where
  text : String
  room : Option Nat
  deriving DecidableEq, Repr

namespace Outlet

/- An output that has taken nothing. -/
def empty
    (room : Option Nat) : Outlet :=
  { text := "", room }

/- The output after one more line, unless it fails. -/
def take?
    (line : String)
    (o : Outlet) : Option Outlet :=
  match o.room with
  | none => some { o with text := o.text ++ line }
  | some 0 => none
  | some (room + 1) => some ⟨o.text ++ line, some room⟩

end Outlet

------------------------------------------------------------
-- Writing notifications
------------------------------------------------------------

namespace Notices

/- The line of a notification. -/
def line
    (n : Notification) : String :=
  Wire.text n ++ "\n"

/-
  Writes one notification after the other, until there are no
  more or the output fails. The number counts those that were
  written.
-/
def run :
    Nat → List Notification → Outlet → Nat × Outlet
  | count, [], o => (count, o)
  | count, n :: rest, o =>
      match o.take? (line n) with
      | none => (count, o)
      | some next => run (count + 1) rest next

/- The notifications that an output with so much room takes. -/
def written
    (room : Option Nat)
    (ns : List Notification) : List Notification :=
  ns.take (run 0 ns (.empty room)).1

/- What is written to it. -/
def output
    (room : Option Nat)
    (ns : List Notification) : String :=
  (run 0 ns (.empty room)).2.text

end Notices

end JourneyMatch
