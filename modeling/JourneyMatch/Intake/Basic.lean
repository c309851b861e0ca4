import JourneyMatch.Intake.Line

/-
  This file defines the intake: the events of an input, in
  order, with counts of the accepted and of the malformed
  lines. A malformed line does not touch its neighbours.

  Key definitions include:
    * `Shutdown`
    * `Intake`
    * `Intake.ofLines`
    * `Intake.read`
-/

namespace JourneyMatch

------------------------------------------------------------
-- Shutdown
------------------------------------------------------------

/-
  What a shutdown channel holds for one who has not looked at
  it: nothing, a value that lets all go on, a value that ends
  all, or the news that its sender is gone.
-/
inductive Shutdown where
  | quiet
  | lowered
  | raised
  | dropped
  deriving DecidableEq, Repr

/- Whether a shutdown channel asks to end. -/
def Shutdown.ends : Shutdown → Bool
  | .quiet | .lowered => false
  | .raised | .dropped => true

------------------------------------------------------------
-- The intake
------------------------------------------------------------

/- The events of an input and the counts of its lines. -/
structure Intake where
  accepted : Nat
  malformed : Nat
  events : List Event

namespace Intake

/- The intake of no line. -/
def empty : Intake :=
  ⟨0, 0, []⟩

/- The intake with an event before the others. -/
def accept
    (event : Event)
    (i : Intake) : Intake :=
  { i with
    accepted := i.accepted + 1
    events := event :: i.events }

/- The intake with a malformed line before the others. -/
def reject
    (i : Intake) : Intake :=
  { i with malformed := i.malformed + 1 }

/-
  The intake of lines. Where nobody takes events, it ends at
  the first one, which does not count.
-/
def ofLines
    (taken : Bool) :
    List Line → Intake
  | [] => empty
  | .blank :: rest => ofLines taken rest
  | .malformed :: rest => (ofLines taken rest).reject
  | .event event :: rest =>
      if taken then (ofLines taken rest).accept event else empty

/-
  The intake of an input. A shutdown that was asked for
  before it begins leaves everything unread.
-/
def read
    (shutdown : Shutdown)
    (taken : Bool)
    (input : List UInt8) : Intake :=
  if shutdown.ends then
    empty
  else
    ofLines taken ((linesOf input).map Line.ofBytes)

end Intake

end JourneyMatch
