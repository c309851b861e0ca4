import JourneyMatch.Matcher.Feed
import JourneyMatch.Proofs.Matcher.Sequence
import Mathlib.Logic.Relation

/-
  This file treats the loop that feeds events to the matcher.
  The turn of the loop is a choice between its two channels,
  in which a branch that is under way keeps the choice open:
  the shutdown channel is under way until it tells something,
  so that the end of the events does not decide the choice.

  Whatever is put into the channels while the loop runs, it
  handles the events in the order in which they were sent,
  each of them once, and goes on after a failure. Only the
  shutdown channel makes it leave. Where the channel of events
  is closed and empty and the shutdown channel quiet, the loop
  waits.

  Key definitions include:
    * `Branch.choose`
    * `FeedLoop`
    * `FeedLoop.Inside`
    * `FeedLoop.Outside`
    * `FeedLoop.Reachable`

  Main statements:
    * `Feed.turn_eq_choose`
    * `Matcher.follow_eq`
    * `FeedLoop.drains_then_waits`
-/

namespace JourneyMatch

------------------------------------------------------------
-- A choice between branches
------------------------------------------------------------

/-
  How far one branch of a choice is: it is under way, it has
  a result, or what it came to does not fit and it is out.
-/
inductive Branch (α : Type) where
  | underWay
  | taken (result : α)
  | out

namespace Branch

variable {α : Type}

/- The result of a branch that has one. -/
def result? : Branch α → Option α
  | .underWay => none
  | .taken result => some result
  | .out => none

/- Whether a branch is out. -/
def isOut : Branch α → Bool
  | .underWay => false
  | .taken _ => false
  | .out => true

/-
  A choice between branches. The first one with a result
  decides it. When all of them are out, the fallback does.
  Otherwise the choice stays open.
-/
def choose
    (fallback : α)
    (branches : List (Branch α)) : Option α :=
  match branches.findSome? result? with
  | some result => some result
  | none =>
      if branches.all isOut then some fallback else none

/-
  Where a branch is not out, the fallback plays no part in the
  choice.
-/
theorem choose_of_mem
    {branches : List (Branch α)}
    {b : Branch α}
    (hMem : b ∈ branches)
    (hIn : b.isOut = false)
    (x y : α) :
    choose x branches = choose y branches := by
  have hAll : branches.all isOut = false :=
    List.all_eq_false.mpr ⟨b, hMem, by simp [hIn]⟩
  simp only [choose, hAll, Bool.false_eq_true, if_false]

end Branch

namespace Feed

/-
  The branch of the shutdown channel, which takes whatever it
  is told, also that nothing will be told any more.
-/
def shutdownBranch
    (f : Feed) : Branch Turn :=
  match f.shutdown with
  | .quiet => .underWay
  | .lowered => .taken (.skip { f with shutdown := .quiet })
  | .raised => .taken .leave
  | .dropped => .taken .leave

/-
  The branch of the events, which is out once the channel is
  closed and empty.
-/
def eventBranch
    (f : Feed) : Branch Turn :=
  match f.events with
  | event :: rest => .taken (.handle event { f with events := rest })
  | [] => if f.closed then .out else .underWay

/- The shutdown channel is never out. -/
theorem isOut_shutdownBranch
    (f : Feed) :
    f.shutdownBranch.isOut = false := by
  unfold shutdownBranch
  cases f.shutdown <;> rfl

/-
  The turn of the loop is the choice between the shutdown
  channel and the events, in this order. What the loop would
  do if both were out does not matter, because the shutdown
  channel never is.
-/
theorem turn_eq_choose
    (fallback : Turn)
    (f : Feed) :
    f.turn
      = (Branch.choose fallback
          [f.shutdownBranch, f.eventBranch]).getD .wait := by
  rw [Branch.choose_of_mem List.mem_cons_self
    f.isOut_shutdownBranch fallback .leave]
  rcases f with ⟨events, closed, shutdown⟩
  cases shutdown with
  | raised => rfl
  | dropped => rfl
  | lowered => rfl
  | quiet =>
      cases events with
      | cons event rest => rfl
      | nil => cases closed <;> rfl

/- The loop leaves exactly if the shutdown channel ends it. -/
theorem turn_eq_leave_iff
    {f : Feed} :
    f.turn = .leave ↔ f.shutdown.ends = true := by
  rcases f with ⟨events, closed, shutdown⟩
  cases shutdown <;> cases events <;>
    simp [turn, Shutdown.ends]

/-
  The loop waits exactly if there are no events and the
  shutdown channel is quiet, be the events closed or not.
-/
theorem turn_eq_wait_iff
    {f : Feed} :
    f.turn = .wait ↔ f.shutdown = .quiet ∧ f.events = [] := by
  rcases f with ⟨events, closed, shutdown⟩
  cases shutdown <;> cases events <;> simp [turn]

/- The loop handles an event if it is next and all is quiet. -/
theorem turn_eq_handle_iff
    {f rest : Feed}
    {e : Event} :
    f.turn = .handle e rest
      ↔ f.shutdown = .quiet
        ∧ f.events = e :: rest.events
        ∧ rest = { f with events := rest.events } := by
  rcases f with ⟨events, closed, shutdown⟩
  rcases rest with ⟨left, leftClosed, leftShutdown⟩
  cases shutdown <;> cases events <;>
    simp only [turn, reduceCtorEq, false_and, true_and,
      Turn.handle.injEq, List.cons.injEq, Feed.mk.injEq]
  constructor
  · rintro ⟨rfl, rfl, rfl, rfl⟩
    exact ⟨⟨rfl, rfl⟩, rfl, rfl⟩
  · rintro ⟨⟨rfl, rfl⟩, rfl, rfl⟩
    exact ⟨rfl, rfl, rfl, rfl⟩

/- The loop skips a value that lets all go on. -/
theorem turn_eq_skip_iff
    {f rest : Feed} :
    f.turn = .skip rest
      ↔ f.shutdown = .lowered
        ∧ rest = { f with shutdown := .quiet } := by
  rcases f with ⟨events, closed, shutdown⟩
  cases shutdown <;> cases events <;> simp [turn, eq_comm]

end Feed

------------------------------------------------------------
-- The loop as calls in their order
------------------------------------------------------------

namespace Matcher

/-
  Where the shutdown channel ends the loop, the loop leaves
  without a call. Otherwise it handles all events in their
  order and then waits, be they closed or not.
-/
theorem follow_eq
    (now : Readings)
    (f : Feed)
    (m : Matcher) :
    m.follow now f
      = if f.shutdown.ends then
          (⟨[], true⟩, m)
        else
          (⟨(m.handleAll now f.events).1, false⟩,
            (m.handleAll now f.events).2) := by
  rcases f with ⟨events, closed, shutdown⟩
  have hQuiet :
      ∀ (events : List Event) (m : Matcher),
        m.follow now ⟨events, closed, .quiet⟩
          = (⟨(m.handleAll now events).1, false⟩,
              (m.handleAll now events).2) := by
    intro events
    induction events with
    | nil =>
        intro m
        rw [follow]
        rfl
    | cons e events ih =>
        intro m
        rw [follow]
        simp only [Feed.turn, ih, handleAll_cons]
  cases shutdown with
  | raised =>
      rw [follow]
      rfl
  | dropped =>
      rw [follow]
      rfl
  | quiet => exact hQuiet events m
  | lowered =>
      rw [follow]
      exact hQuiet events m

end Matcher

------------------------------------------------------------
-- The loop and its surroundings
------------------------------------------------------------

/-
  The loop while it runs: what it has before it, the matcher,
  all events sent so far, the calls it has made with their
  replies, and whether it has left.
-/
structure FeedLoop where
  feed : Feed
  matcher : Matcher
  sent : List Event
  calls : List (Readings × Event)
  replies : List Reply
  left : Bool

namespace FeedLoop

/- A loop that begins with open channels. -/
def begin
    (m : Matcher) : FeedLoop :=
  ⟨⟨[], false, .quiet⟩, m, [], [], [], false⟩

/- The loop after it has handled an event. -/
def handled
    (now : Readings)
    (e : Event)
    (rest : Feed)
    (l : FeedLoop) : FeedLoop :=
  { l with
    feed := rest
    matcher := (l.matcher.handle now e).2
    calls := l.calls ++ [(now, e)]
    replies := l.replies ++ [(l.matcher.handle now e).1] }

/- The loop after it has left and stopped the matcher. -/
def gone
    (l : FeedLoop) : FeedLoop :=
  { l with matcher := l.matcher.stop, left := true }

/- What the loop does, at whatever instants. -/
inductive Inside : FeedLoop → FeedLoop → Prop where
  | handle
      {l : FeedLoop}
      {e : Event}
      {rest : Feed}
      (now : Readings)
      (hIn : l.left = false)
      (hTurn : l.feed.turn = .handle e rest) :
      Inside l (l.handled now e rest)
  | skip
      {l : FeedLoop}
      {rest : Feed}
      (hIn : l.left = false)
      (hTurn : l.feed.turn = .skip rest) :
      Inside l { l with feed := rest }
  | leave
      {l : FeedLoop}
      (hIn : l.left = false)
      (hTurn : l.feed.turn = .leave) :
      Inside l l.gone

/-
  What happens to the channels while the loop runs: an event
  is sent, the last sender of events goes, or the shutdown
  channel is told something while its sender is there.
-/
inductive Outside : FeedLoop → FeedLoop → Prop where
  | send
      {l : FeedLoop}
      (e : Event)
      (hIn : l.left = false)
      (hOpen : l.feed.closed = false) :
      Outside l
        { l with
          feed := { l.feed with events := l.feed.events ++ [e] }
          sent := l.sent ++ [e] }
  | close
      {l : FeedLoop}
      (hIn : l.left = false) :
      Outside l { l with feed := { l.feed with closed := true } }
  | tell
      {l : FeedLoop}
      (s : Shutdown)
      (hIn : l.left = false)
      (hAlive : l.feed.shutdown ≠ .dropped)
      (hNews : s ≠ .quiet) :
      Outside l { l with feed := { l.feed with shutdown := s } }

/- What the loop and its surroundings can come to. -/
inductive Reachable
    (m : Matcher) : FeedLoop → Prop where
  | start : Reachable m (begin m)
  | inside
      {l g : FeedLoop}
      (hBefore : Reachable m l)
      (hStep : Inside l g) :
      Reachable m g
  | outside
      {l g : FeedLoop}
      (hBefore : Reachable m l)
      (hStep : Outside l g) :
      Reachable m g

------------------------------------------------------------
-- What a loop has done
------------------------------------------------------------

/-
  Whether a loop has handled what was sent up to what is
  still before it, in order, on a matcher that it stops when
  it leaves, and has left only where it was told to.
-/
structure Follows
    (m : Matcher)
    (l : FeedLoop) : Prop where
  sent : l.sent = l.calls.map Prod.snd ++ l.feed.events
  replies : l.replies = (m.feed l.calls).1
  matcher :
    l.matcher
      = if l.left then (m.feed l.calls).2.stop
        else (m.feed l.calls).2
  told : l.left = true → l.feed.shutdown.ends = true

/- A turn of the loop keeps to the order of the events. -/
theorem Follows.inside
    {m : Matcher}
    {l g : FeedLoop}
    (hFollows : Follows m l)
    (hStep : Inside l g) :
    Follows m g := by
  cases hStep with
  | handle now hIn hTurn =>
      rename_i e rest
      rcases Feed.turn_eq_handle_iff.mp hTurn with
        ⟨_, hEvents, hRest⟩
      have hMatcher := hFollows.matcher
      rw [hIn, if_neg Bool.false_ne_true] at hMatcher
      refine ⟨?_, ?_, ?_, ?_⟩
      · simp [handled, hFollows.sent, hEvents]
      · simp [handled, Matcher.feed_append, Matcher.feed,
          hFollows.replies, hMatcher]
      · simp [handled, Matcher.feed_append, Matcher.feed,
          hMatcher, hIn]
      · intro hLeft
        rw [handled, hIn] at hLeft
        cases hLeft
  | skip hIn hTurn =>
      rename_i rest
      rcases Feed.turn_eq_skip_iff.mp hTurn with ⟨_, rfl⟩
      refine
        ⟨hFollows.sent, hFollows.replies, hFollows.matcher, ?_⟩
      · intro hLeft
        rw [hIn] at hLeft
        cases hLeft
  | leave hIn hTurn =>
      have hMatcher := hFollows.matcher
      rw [hIn, if_neg Bool.false_ne_true] at hMatcher
      refine ⟨hFollows.sent, hFollows.replies, ?_, ?_⟩
      · simp [gone, hMatcher]
      · intro _
        exact Feed.turn_eq_leave_iff.mp hTurn

/- News in the channels keep to the order of the events. -/
theorem Follows.outside
    {m : Matcher}
    {l g : FeedLoop}
    (hFollows : Follows m l)
    (hStep : Outside l g) :
    Follows m g := by
  cases hStep with
  | send e hIn hOpen =>
      refine
        ⟨?_, hFollows.replies, hFollows.matcher, hFollows.told⟩
      rw [hFollows.sent, List.append_assoc]
  | close hIn =>
      exact
        ⟨hFollows.sent, hFollows.replies, hFollows.matcher,
          hFollows.told⟩
  | tell s hIn hAlive hNews =>
      refine
        ⟨hFollows.sent, hFollows.replies, hFollows.matcher, ?_⟩
      intro hLeft
      rw [hIn] at hLeft
      cases hLeft

theorem Reachable.follows
    {m : Matcher}
    {l : FeedLoop}
    (hReachable : Reachable m l) :
    Follows m l := by
  induction hReachable with
  | start => exact ⟨rfl, rfl, rfl, nofun⟩
  | inside _ hStep ih => exact ih.inside hStep
  | outside _ hStep ih => exact ih.outside hStep

------------------------------------------------------------
-- What a loop does next
------------------------------------------------------------

/- A loop without events or news has no turn to take. -/
theorem not_inside_of_quiet
    {l g : FeedLoop}
    (hQuiet : l.feed.shutdown = .quiet)
    (hEmpty : l.feed.events = []) :
    ¬ Inside l g := by
  have hWait := Feed.turn_eq_wait_iff.mpr ⟨hQuiet, hEmpty⟩
  intro hStep
  cases hStep with
  | handle now hIn hTurn => rw [hWait] at hTurn; cases hTurn
  | skip hIn hTurn => rw [hWait] at hTurn; cases hTurn
  | leave hIn hTurn => rw [hWait] at hTurn; cases hTurn

/- A loop that is told to leave does so in its next turn. -/
theorem inside_iff_of_ends
    {l g : FeedLoop}
    (hIn : l.left = false)
    (hEnds : l.feed.shutdown.ends = true) :
    Inside l g ↔ g = l.gone := by
  have hLeave := Feed.turn_eq_leave_iff.mpr hEnds
  constructor
  · intro hStep
    cases hStep with
    | handle now hIn hTurn => rw [hLeave] at hTurn; cases hTurn
    | skip hIn hTurn => rw [hLeave] at hTurn; cases hTurn
    | leave hIn hTurn => rfl
  · rintro rfl
    exact .leave hIn hLeave

/- While no shutdown is told, the loop does not leave. -/
theorem Inside.quiet
    {l g : FeedLoop}
    (hStep : Inside l g)
    (hQuiet : l.feed.shutdown = .quiet) :
    g.left = false ∧ g.feed.shutdown = .quiet := by
  cases hStep with
  | handle now hIn hTurn =>
      rcases Feed.turn_eq_handle_iff.mp hTurn with ⟨_, _, hRest⟩
      refine ⟨hIn, ?_⟩
      rw [handled, hRest]
      exact hQuiet
  | skip hIn hTurn =>
      rcases Feed.turn_eq_skip_iff.mp hTurn with ⟨hLowered, _⟩
      rw [hQuiet] at hLowered
      cases hLowered
  | leave hIn hTurn =>
      have hEnds := Feed.turn_eq_leave_iff.mp hTurn
      rw [hQuiet] at hEnds
      cases hEnds

/- However many turns it takes, it does not leave. -/
theorem quiet_of_turns
    {l g : FeedLoop}
    (hIn : l.left = false)
    (hQuiet : l.feed.shutdown = .quiet)
    (hTurns : Relation.ReflTransGen Inside l g) :
    g.left = false ∧ g.feed.shutdown = .quiet := by
  induction hTurns with
  | refl => exact ⟨hIn, hQuiet⟩
  | tail _ hStep ih => exact hStep.quiet ih.2

/-
  While no shutdown is told, the loop takes a turn for each
  event before it, at whatever instants, until none is left.
-/
theorem exists_drained
    {l : FeedLoop}
    {events : List Event}
    {times : List Readings}
    (hIn : l.left = false)
    (hQuiet : l.feed.shutdown = .quiet)
    (hEvents : l.feed.events = events)
    (hTimes : times.length = events.length) :
    ∃ g,
      Relation.ReflTransGen Inside l g
        ∧ g.calls = l.calls ++ times.zip events
        ∧ g.feed = { l.feed with events := [] } := by
  induction events generalizing l times with
  | nil =>
      refine ⟨l, .refl, ?_, ?_⟩
      · rw [List.zip_nil_right, List.append_nil]
      · rw [← hEvents]
  | cons e rest ih =>
      cases times with
      | nil => cases hTimes
      | cons now times =>
          have hTurn :
              l.feed.turn
                = .handle e { l.feed with events := rest } :=
            Feed.turn_eq_handle_iff.mpr ⟨hQuiet, hEvents, rfl⟩
          have hStep := Inside.handle now hIn hTurn
          rcases
            ih (hStep.quiet hQuiet).1 (hStep.quiet hQuiet).2 rfl
              (Nat.succ.inj hTimes) with
            ⟨g, hTurns, hCalls, hFeed⟩
          refine ⟨g, hTurns.head hStep, ?_, ?_⟩
          · rw [hCalls, handled, List.append_assoc]
            rfl
          · rw [hFeed]
            rfl

/-
  However events are sent, the channel of events is closed
  and the shutdown channel is told something while the loop
  runs:
    * what was sent is what has been handled, in this order
      and each event once, and then what is still before the
      loop; a call that fails does not change this;
    * if no shutdown is told, the loop handles all events
      before it, at whatever instants, and then has no turn to
      take: it waits, and it never leaves, also where the
      events are closed;
    * if it is told to leave, then its next turn is to leave
      and to stop the matcher, and it leaves nowhere else.
-/
theorem drains_then_waits
    {m : Matcher}
    {l : FeedLoop}
    (hReachable : Reachable m l) :
    Follows m l
      ∧ (l.left = false →
        l.feed.shutdown = .quiet →
          (∀ times : List Readings,
              times.length = l.feed.events.length →
                ∃ g,
                  Relation.ReflTransGen Inside l g
                    ∧ g.calls
                      = l.calls ++ times.zip l.feed.events
                    ∧ g.feed = { l.feed with events := [] }
                    ∧ ∀ h, ¬ Inside g h)
            ∧ ∀ g,
                Relation.ReflTransGen Inside l g →
                  g.left = false)
      ∧ (l.left = false →
        l.feed.shutdown.ends = true →
          ∀ g, Inside l g ↔ g = l.gone) := by
  refine ⟨hReachable.follows, ?_, ?_⟩
  · intro hIn hQuiet
    constructor
    · intro times hTimes
      rcases exists_drained hIn hQuiet rfl hTimes with
        ⟨g, hTurns, hCalls, hFeed⟩
      refine ⟨g, hTurns, hCalls, hFeed, ?_⟩
      intro h
      exact
        not_inside_of_quiet (quiet_of_turns hIn hQuiet hTurns).2
          (by rw [hFeed])
    · intro g hTurns
      exact (quiet_of_turns hIn hQuiet hTurns).1
  · intro hIn hEnds g
    exact inside_iff_of_ends hIn hEnds

/- A loop that is sent one event and then no more. -/
def seenLoop : FeedLoop :=
  { begin (.begin 1000 .counted .empty) with
    feed := ⟨[.received seenReceived], true, .quiet⟩
    sent := [.received seenReceived] }

theorem reachable_seenLoop :
    Reachable (.begin 1000 .counted .empty) seenLoop :=
  .outside
    (.outside .start (.send (.received seenReceived) rfl rfl))
    (.close rfl)

/- The loop handles its one event and then waits. -/
theorem drains_then_waits_seenLoop :
    ∃ g,
      Relation.ReflTransGen Inside seenLoop g
        ∧ g.calls = [(.still ⟨0⟩, .received seenReceived)]
        ∧ g.feed = ⟨[], true, .quiet⟩
        ∧ ∀ h, ¬ Inside g h :=
  ((drains_then_waits reachable_seenLoop).2.1 rfl rfl).1
    [.still ⟨0⟩] rfl

/-
  The loop never leaves, although its senders are gone and no
  shutdown is told.
-/
theorem seenLoop_never_left :
    Reachable (.begin 1000 .counted .empty) seenLoop
      ∧ seenLoop.feed.closed = true
      ∧ seenLoop.feed.shutdown = .quiet
      ∧ ¬ ∃ g,
        Relation.ReflTransGen Inside seenLoop g
          ∧ g.left = true := by
  refine ⟨reachable_seenLoop, rfl, rfl, ?_⟩
  rintro ⟨g, hTurns, hLeft⟩
  rw [(quiet_of_turns rfl rfl hTurns).1] at hLeft
  cases hLeft

end FeedLoop

end JourneyMatch
