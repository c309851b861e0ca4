import JourneyMatch.Command.Run
import JourneyMatch.Matcher.Feed
import JourneyMatch.Settings.Live
import JourneyMatch.Task.TickLoop

/-
  This file defines the service: the matcher, the listeners
  of the tasks, the loop that fires them, and the settings,
  all of which see the same time.

  Key definitions include:
    * `Service`
    * `Service.begin`
    * `Service.handle`
    * `Service.call`
    * `Service.fire`
    * `Service.Turn`
    * `Service.giveWay`
    * `Service.advance`
    * `Service.restart`
    * `Service.adopt`
    * `Service.obey`
-/

namespace JourneyMatch

/-
  The state of the service. The expiry of the matcher is the
  one in the settings. The calls under way have been made and
  have not begun; they are handled in their order as soon as
  the service gives way to them.
-/
structure Service where
  settings : LiveSettings
  matcher : Matcher
  listeners : Listeners
  loop : Option TickLoop
  now : Instant
  heard : Bool
  underWay : List Event

namespace Service

------------------------------------------------------------
-- Beginning and ending
------------------------------------------------------------

/- The listeners of a service that begins. -/
def firstListeners : Listeners :=
  Listeners.register [] sweepType Janitor.sweep

/- A service that begins on a store. -/
def begin
    (settings : LiveSettings)
    (tags : TagSource)
    (now : Instant)
    (store : Store) : Service :=
  { settings
    matcher := Matcher.begin settings.expiry.value tags store
    listeners := firstListeners
    loop := none
    now
    heard := true
    underWay := [] }

/- The store of the service. -/
def store
    (s : Service) : Store :=
  s.matcher.store

/- The service on another store. -/
def setStore
    (store : Store)
    (s : Service) : Service :=
  { s with matcher := { s.matcher with store } }

/- Lets an operation work on the store. -/
def onStore
    {ρ : Type}
    (operation : Store → ρ × Store)
    (s : Service) : ρ × Service :=
  let (result, store) := operation s.store
  (result, s.setStore store)

/- Nobody takes notifications any more. -/
def closeOutput
    (s : Service) : Service :=
  { s with heard := false }

------------------------------------------------------------
-- Events
------------------------------------------------------------

/- The notifications of replies that anybody takes. -/
def notices
    (s : Service)
    (replies : List Reply) : List Notification :=
  if s.heard then
    replies.flatMap (·.notifications)
  else
    []

/- Lets an operation work on the matcher. -/
def onMatcher
    {ρ : Type}
    (operation : Matcher → ρ × Matcher)
    (s : Service) : ρ × Service :=
  let (result, matcher) := operation s.matcher
  (result, { s with matcher })

/- Handles events, one after the other. -/
def handle
    (events : List Event)
    (s : Service) : List Reply × Service :=
  s.onMatcher (Matcher.handleAll (.still s.now) events)

/- Makes calls that nobody waits for. -/
def call
    (events : List Event)
    (s : Service) : Service :=
  { s with underWay := s.underWay ++ events }

/- Runs the loop of the matcher over a feed. -/
def run
    (f : Feed)
    (s : Service) : FeedReport × Service :=
  s.onMatcher (Matcher.run (.still s.now) f)

------------------------------------------------------------
-- Tasks
------------------------------------------------------------

/- Registers a listener. -/
def listen
    (type : String)
    (listener : Listener)
    (s : Service) : Service :=
  { s with
    listeners := s.listeners.register type listener }

/- Schedules tasks with fresh keys, which it gives. -/
def scheduleAt
    (requests : List TaskRequest)
    (s : Service) : List String × Service :=
  let (tasks, tags) := drawTasks requests s.matcher.tags
  let store := TaskQueue.schedule tasks s.store
  (tasks.map (·.key),
    { s with matcher := { s.matcher with tags, store } })

/- Schedules removals with fresh keys, which it gives. -/
def scheduleSweeps
    (now : Instant)
    (requests : List SweepRequest)
    (s : Service) : List String × Service :=
  let (keys, tags, store) :=
    Janitor.schedule now s.matcher.expiry requests
      s.matcher.tags s.store
  (keys, { s with matcher := { s.matcher with tags, store } })

/- Fires the tasks that are due at an instant. -/
def fire
    (due : Instant)
    (s : Service) : List Firing × Service :=
  s.onStore (fireDue s.listeners due)

/- Sets the clock; nobody's wait is any shorter for it. -/
def setClock
    (now : Instant)
    (s : Service) : Service :=
  { s with now }

------------------------------------------------------------
-- Turns
------------------------------------------------------------

/-
  What the others did while the service gave way to them: the
  tasks that the loop fired, and the notifications of the
  calls under way.
-/
structure Turn where
  firings : List Firing
  notices : List Notification

namespace Turn

/- A turn in which nothing was done. -/
def idle : Turn :=
  ⟨[], []⟩

/- One turn after the other. -/
def andThen
    (first second : Turn) : Turn :=
  ⟨first.firings ++ second.firings,
    first.notices ++ second.notices⟩

end Turn

/-
  How often a loop that does not wait fires before others
  have their turn, where there is always something due.
-/
def mostFirings : Nat :=
  64

/- Fires until nothing is due, but not more often than told. -/
def fireRepeatedly : Nat → Service → List Firing × Service
  | 0, s => ([], s)
  | times + 1, s =>
      match s.fire s.now with
      | ([], s) => ([], s)
      | (firings, s) =>
          let (more, s) := fireRepeatedly times s
          (firings ++ more, s)

/- Whether the loop runs and does not wait. -/
def restless
    (s : Service) : Bool :=
  match s.loop with
  | some loop => loop.wait = 0
  | none => false

/-
  Gives way to the others: to a loop that does not wait, and
  then to the calls under way.
-/
def giveWay
    (s : Service) : Turn × Service :=
  let (firings, s) :=
    if s.restless then fireRepeatedly mostFirings s else ([], s)
  let (replies, s) := s.handle s.underWay
  (⟨firings, s.notices replies⟩, { s with underWay := [] })

------------------------------------------------------------
-- The loop
------------------------------------------------------------

/-
  Starts the loop, unless it is running. The calls under way
  come before its first wait.
-/
def start
    (s : Service) : Except LoopError Turn × Service :=
  match s.loop with
  | some _ => (.error .alreadyRunning, s)
  | none =>
      let (before, s) := s.giveWay
      let loop := TickLoop.start s.settings.frequency.value
      let (after, s) := giveWay { s with loop := some loop }
      (.ok (before.andThen after), s)

/- Stops the loop, if it runs, and waits until it has ended. -/
def halt
    (s : Service) : Turn × Service :=
  match s.loop with
  | none => (.idle, s)
  | some _ => giveWay { s with loop := none }

/-
  Lets time pass, in milliseconds. The others have their turn
  then, and where the loop's wait is over, it fires once.
-/
def advance
    (millis : Nat)
    (s : Service) : Turn × Service :=
  let s := s.setClock ⟨s.now.nanos + millis * 1000000⟩
  let (turn, s) := s.giveWay
  match s.loop with
  | none => (turn, s)
  | some loop =>
      match loop.pass millis with
      | (false, loop) => (turn, { s with loop := some loop })
      | (true, loop) =>
          let (firings, s) :=
            fire s.now { s with loop := some loop }
          (turn.andThen ⟨firings, []⟩, s)

/-
  Ends the service and lets it begin again, after the calls
  under way. What is stored stays, and so do the settings.
-/
def restart
    (s : Service) : Turn × Service :=
  let (turn, s) := giveWay { s with loop := none }
  (turn,
    begin s.settings s.matcher.tags s.now s.matcher.store)

------------------------------------------------------------
-- Settings
------------------------------------------------------------

/-
  Goes on with other settings. A new period, even one as long
  as before, begins the wait of the loop anew.
-/
def adopt
    (settings : LiveSettings)
    (s : Service) : Service :=
  let renewed :=
    s.settings.frequency.version < settings.frequency.version
  { s with
    settings
    matcher :=
      { s.matcher with expiry := settings.expiry.value }
    loop :=
      if renewed then
        s.loop.map (·.restart settings.frequency.value)
      else
        s.loop }

/-
  Sets the period of the loop. A loop that waits is behind
  the calls under way; one that does not sees the new period
  before it fires again.
-/
def setFrequency
    (millis : Nat)
    (s : Service) : Turn × Service :=
  let (before, s) :=
    if s.restless then (.idle, s) else s.giveWay
  let (after, s) :=
    giveWay
      (s.adopt
        { s.settings with
          frequency := s.settings.frequency.update millis })
  (before.andThen after, s)

/- Sets the usual expiry. -/
def setExpiry
    (millis : Nat)
    (s : Service) : Service :=
  s.adopt
    { s.settings with
      expiry := s.settings.expiry.update millis }

/- Loads the settings again, after the others' turn. -/
def reload
    (file : Option (List UInt8))
    (storePath : Option String)
    (s : Service) : Turn × Service :=
  let (before, s) := s.giveWay
  let (after, s) :=
    giveWay (s.adopt (s.settings.reload file storePath))
  (before.andThen after, s)

------------------------------------------------------------
-- Commands
------------------------------------------------------------

/- Why a command line is not carried out to its end. -/
inductive CommandError where
  | usage (e : UsageError)
  | failed (e : MatchError)
  deriving DecidableEq, Repr

/-
  Carries out a command line while the service is not there.
  A command line that is not understood leaves the store as
  it is.
-/
def obey
    (args : List String)
    (s : Service) :
    Except CommandError (List String) × Service :=
  match Command.parse args with
  | .error e => (.error (.usage e), s)
  | .ok command =>
      match s.onStore (fun store => command.run store) with
      | (.ok lines, s) => (.ok lines, s)
      | (.error e, s) => (.error (.failed e), s)

end Service

end JourneyMatch
