import JourneyMatch.Intake.Basic
import JourneyMatch.Matcher.Basic

/-
  This file defines the loop that feeds events to the matcher
  from a channel, until the shutdown channel asks it to end.
  The loop does not end when the events do: it goes on to
  wait for the shutdown channel.

  Key definitions include:
    * `Feed`
    * `Turn`
    * `Feed.turn`
    * `Matcher.follow`
    * `Matcher.run`
-/

namespace JourneyMatch

------------------------------------------------------------
-- Turns
------------------------------------------------------------

/-
  What the loop has before it: the events in the channel,
  whether all their senders are gone, and the shutdown
  channel.
-/
structure Feed where
  events : List Event
  closed : Bool
  shutdown : Shutdown

/- What the loop does in a turn, and what is left then. -/
inductive Turn where
  | handle (event : Event) (rest : Feed)
  | skip (rest : Feed)
  | wait
  | leave

namespace Feed

/-
  The turn of the loop. The shutdown channel comes first; a
  value in it that lets all go on is skipped. A channel of
  events that is closed and empty is never ready again, and
  the shutdown channel may be, so there the loop waits.
-/
def turn
    (f : Feed) : Turn :=
  match f.shutdown, f.events with
  | .raised, _ => .leave
  | .dropped, _ => .leave
  | .lowered, _ => .skip { f with shutdown := .quiet }
  | .quiet, event :: rest =>
      .handle event { f with events := rest }
  | .quiet, [] => .wait

/- How many turns are left at most before a wait. -/
def turnsLeft
    (f : Feed) : Nat :=
  match f.shutdown with
  | .lowered => f.events.length + 1
  | _ => f.events.length

/- Handling an event leaves fewer turns. -/
theorem turnsLeft_of_handle
    {f rest : Feed}
    {event : Event}
    (hTurn : f.turn = .handle event rest) :
    rest.turnsLeft < f.turnsLeft := by
  obtain ⟨events, closed, shutdown⟩ := f
  cases shutdown <;> cases events <;>
    simp only [turn, reduceCtorEq, Turn.handle.injEq] at hTurn
  obtain ⟨_, rfl⟩ := hTurn
  simp only [turnsLeft, List.length_cons]
  omega

/- Skipping a value leaves fewer turns. -/
theorem turnsLeft_of_skip
    {f rest : Feed}
    (hTurn : f.turn = .skip rest) :
    rest.turnsLeft < f.turnsLeft := by
  obtain ⟨events, closed, shutdown⟩ := f
  cases shutdown <;> cases events <;>
    simp only [turn, reduceCtorEq, Turn.skip.injEq] at hTurn
  all_goals
    subst hTurn
    simp only [turnsLeft]
    omega

end Feed

------------------------------------------------------------
-- The loop
------------------------------------------------------------

/-
  How far the loop came: the replies to the events that it
  handled, and whether it left or waits.
-/
structure FeedReport where
  replies : List Reply
  left : Bool

namespace Matcher

/- Takes turns until the loop leaves or has to wait. -/
def follow
    (now : Readings)
    (f : Feed)
    (m : Matcher) : FeedReport × Matcher :=
  match _hTurn : f.turn with
  | .leave => (⟨[], true⟩, m)
  | .wait => (⟨[], false⟩, m)
  | .skip rest => follow now rest m
  | .handle event rest =>
      let (reply, m) := m.handle now event
      let (report, m) := follow now rest m
      ({ report with replies := reply :: report.replies }, m)
termination_by f.turnsLeft
decreasing_by
  · exact Feed.turnsLeft_of_skip _hTurn
  · exact Feed.turnsLeft_of_handle _hTurn

/-
  The whole loop over a feed. Where it comes to wait, the
  shutdown channel asks it to end later on. In the end the
  matcher is stopped.
-/
def run
    (now : Readings)
    (f : Feed)
    (m : Matcher) : FeedReport × Matcher :=
  let (report, m) := m.follow now f
  (report, m.stop)

end Matcher

end JourneyMatch
