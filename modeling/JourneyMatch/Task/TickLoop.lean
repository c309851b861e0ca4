/-
  This file defines the loop that fires due tasks at regular
  times: it waits for a period, fires once, and waits again. A
  new period begins the wait anew. No wait is longer than
  thirty years, and a loop whose period is zero does not wait
  at all.

  Key definitions include:
    * `TickLoop`
    * `LoopError`
    * `TickLoop.wait`
    * `TickLoop.pass`
    * `TickLoop.restart`
-/

namespace JourneyMatch

/- A running loop: its period, and how long it has waited. -/
structure TickLoop where
  period : Nat
  waited : Nat
  deriving DecidableEq, Repr

/- Why a loop is not started. -/
inductive LoopError where
  | alreadyRunning
  deriving DecidableEq, Repr

/- The wording for a loop that is not started. -/
def LoopError.message : LoopError → String
  | .alreadyRunning => "scheduler is already running"

namespace TickLoop

/- Thirty years of 365 days, in milliseconds. -/
def longestWait : Nat :=
  946080000000

/- How long a loop waits between two firings. -/
def wait
    (t : TickLoop) : Nat :=
  min t.period longestWait

/- A loop that begins to wait. -/
def start
    (period : Nat) : TickLoop :=
  ⟨period, 0⟩

/-
  Lets time pass in one jump and tells whether the wait is
  over; if so, the loop fires and begins to wait again.
-/
def pass
    (millis : Nat)
    (t : TickLoop) : Bool × TickLoop :=
  if t.wait ≤ t.waited + millis then
    (true, ⟨t.period, 0⟩)
  else
    (false, ⟨t.period, t.waited + millis⟩)

/- Begins the wait anew with a period. -/
def restart
    (period : Nat)
    (_ : TickLoop) : TickLoop :=
  start period

end TickLoop

end JourneyMatch
