import JourneyMatch.Observation.Notification
import JourneyMatch.Pending
import JourneyMatch.Task.Janitor
import JourneyMatch.Visible

/-
  This file defines the matcher, which brings together the
  two sides of each leg. An observation whose counterpart
  waits meets it, and the leg is notified; any other
  observation is stored to wait, with a task that removes it
  after a time.

  Both sides of a leg have the same key: a sent message is
  stored under the target of its leg, a received one under
  the chain it was seen on, and a relayed one under the chain
  it is heading to.

  Key definitions include:
    * `RejectReason`
    * `MatchOutcome`
    * `MatchError`
    * `Reply`
    * `Event.key`
    * `Readings`
    * `Matcher`
    * `Matcher.persist`
    * `Matcher.meetSent`
    * `Matcher.meetReceived`
    * `Matcher.meetRelayed`
    * `Matcher.meet`
    * `Matcher.handle`
    * `Matcher.clear`
    * `Matcher.stop`
-/

namespace JourneyMatch

------------------------------------------------------------
-- Results
------------------------------------------------------------

/- Why an observation is turned away. -/
inductive RejectReason where
  | stopped
  | missingIdentity
  | invalidSubscription
  | invalidLeg
  deriving DecidableEq, Repr

/- What became of an observation. -/
inductive MatchOutcome where
  | matched
  | pending
  | relayed
  | rejected (reason : RejectReason)
  deriving DecidableEq, Repr

/- Why a call of the matcher fails. -/
inductive MatchError where
  | store (cause : StoreError)
  | invalidSubscription (subscription : String)
  | stopped
  deriving DecidableEq, Repr

/- The wording of a failure. -/
def MatchError.message : MatchError → String
  | .store cause => cause.message
  | .invalidSubscription subscription =>
      "invalid subscription id: " ++ Visible.quote subscription
  | .stopped => "matching engine is stopped"

/- The result of a call and the notifications it gives. -/
structure Reply where
  result : Except MatchError MatchOutcome
  notifications : List Notification

/- The reply of a call that the store made fail. -/
def Reply.failed
    (cause : StoreError) : Reply :=
  ⟨.error (.store cause), []⟩

/- The reply to an observation that is turned away. -/
def Reply.rejected
    (reason : RejectReason) : Reply :=
  ⟨.ok (.rejected reason), []⟩

------------------------------------------------------------
-- Keys
------------------------------------------------------------

/-
  The chain on which an event's leg is expected next. A sent
  message whose index is past its legs has none.
-/
def Event.nextChain? : Event → Option ChainId
  | .sent m => m.currentLeg?.map Leg.target
  | .received m => some m.chain
  | .relayed m => some m.recipient

/-
  The key of an event. What is wrong with its identity, its
  subscription and its leg is found in this order.
-/
def Event.key
    (e : Event) : Except RejectReason String :=
  match e.identity with
  | none => .error .missingIdentity
  | some identity =>
      if ValidSubscription e.subscription then
        match e.nextChain? with
        | none => .error .invalidLeg
        | some chain =>
            .ok
              (pendingKey e.subscription
                (correlationKey identity chain))
      else
        .error .invalidSubscription

------------------------------------------------------------
-- The matcher
------------------------------------------------------------

/-
  What a call reads from the clock when it stores an
  observation: the instant from which on its removal is due,
  and a little later the one that its record states.
-/
structure Readings where
  scheduled : Instant
  stored : Instant
  deriving DecidableEq, Repr

/- The readings of a clock that stands still. -/
def Readings.still
    (t : Instant) : Readings :=
  ⟨t, t⟩

/-
  The state of the matcher: the store, the tags of the tasks
  it schedules, the usual expiry in milliseconds, and whether
  it has been stopped.
-/
structure Matcher where
  store : Store
  tags : TagSource
  expiry : Nat
  stopped : Bool

namespace Matcher

/- Cancels a task of the queue, if it is there. -/
def cancel
    (task : String)
    (m : Matcher) : Matcher :=
  { m with store := (TaskQueue.cancel task m.store).2 }

/-
  Stores an observation under a key, with a fresh task that
  removes it. The task of an entry that was there before is
  cancelled; when that entry does not decode, the fresh task
  is cancelled instead.
-/
def persist
    {α : Type}
    [Wire α]
    (now : Readings)
    (n : Namespace)
    (key : String)
    (message : α)
    (m : Matcher) : Except StoreError Unit × Matcher :=
  let task :=
    Janitor.task now.scheduled m.expiry m.tags.next
      ⟨n.name, key, none⟩
  let record : PendingRecord α :=
    ⟨message, task.key, Int64.ofInt now.stored.unixMillis⟩
  let (previous, store) :=
    (TaskQueue.schedule [task] m.store).onLevel n.name
      fun l => l.put key record
  let m := { m with store, tags := m.tags.draw }
  match previous with
  | .ok none => (.ok (), m)
  | .ok (some old) => (.ok (), m.cancel old.expiryTask)
  | .error cause => (.error cause, m.cancel task.key)

/- Whether the journey goes on after the leg of a message. -/
def legKind
    (m : Sent) : NotificationKind :=
  if m.isLastLeg then .received else .hop

------------------------------------------------------------
-- Meeting the counterpart
------------------------------------------------------------

/- What is told of a relay that was seen before its message. -/
def relayNotice
    (message : Sent)
    (relayed : Option (PendingRecord Relayed)) :
    List Notification :=
  match relayed with
  | none => []
  | some r =>
      [.ofSent .relayed message r.message.waypoint none]

/- Cancels the task of a relay that has been told. -/
def cancelRelay
    (relayed : Option (PendingRecord Relayed))
    (m : Matcher) : Matcher :=
  match relayed with
  | none => m
  | some r => m.cancel r.expiryTask

/- Takes a relay that has been told out of its namespace. -/
def dropRelay
    (key : String)
    (relayed : Option (PendingRecord Relayed))
    (m : Matcher) : Matcher :=
  match relayed with
  | none => m
  | some _ =>
      { m with
        store :=
          (m.store.onLevel Namespace.relayed.name
            fun l => l.delete key).2 }

/-
  A sent message meets the received and the relayed one of
  its key, which are both decoded before anything is removed.
-/
def meetSent
    (now : Readings)
    (key : String)
    (message : Sent)
    (m : Matcher) : Reply × Matcher :=
  let origin := Pending.level .awaitingOrigin m.store
  let relays := Pending.level .relayed m.store
  match origin.get (PendingRecord Received) key,
      relays.get (PendingRecord Relayed) key with
  | .error cause, _ => (.failed cause, m)
  | .ok _, .error cause => (.failed cause, m)
  | .ok (some inbound), .ok relayed =>
      let store :=
        m.store.deleteFromBoth
          Namespace.awaitingOrigin.name
          Namespace.relayed.name key
      let m := { m with store }
      let m := m.cancel inbound.expiryTask
      let notice :=
        Notification.ofSent (legKind message) message
          inbound.message.waypoint inbound.message.assetsTrapped
      (⟨.ok .matched, relayNotice message relayed ++ [notice]⟩,
        m.cancelRelay relayed)
  | .ok none, .ok relayed =>
      match m.persist now .awaitingDestination key message with
      | (.error cause, m) => (.failed cause, m)
      | (.ok (), m) =>
          let m := m.dropRelay key relayed
          (⟨.ok .pending, relayNotice message relayed⟩,
            m.cancelRelay relayed)

/- A received message meets the sent one of its key. -/
def meetReceived
    (now : Readings)
    (key : String)
    (message : Received)
    (m : Matcher) : Reply × Matcher :=
  match
    m.store.onLevel Namespace.awaitingDestination.name
      fun l => l.take (PendingRecord Sent) key
  with
  | (.error cause, _) => (.failed cause, m)
  | (.ok (some outbound), store) =>
      let m := { m with store }
      let m := m.cancel outbound.expiryTask
      let notice :=
        Notification.ofSent (legKind outbound.message)
          outbound.message message.waypoint
          message.assetsTrapped
      (⟨.ok .matched, [notice]⟩, m)
  | (.ok none, _) =>
      match m.persist now .awaitingOrigin key message with
      | (.error cause, m) => (.failed cause, m)
      | (.ok (), m) => (⟨.ok .pending, []⟩, m)

/-
  A relayed message meets the sent one of its key, which goes
  on waiting to be received.
-/
def meetRelayed
    (now : Readings)
    (key : String)
    (message : Relayed)
    (m : Matcher) : Reply × Matcher :=
  let sent := Pending.level .awaitingDestination m.store
  match sent.get (PendingRecord Sent) key with
  | .error cause => (.failed cause, m)
  | .ok (some outbound) =>
      let notice :=
        Notification.ofSent .relayed outbound.message
          message.waypoint none
      (⟨.ok .relayed, [notice]⟩, m)
  | .ok none =>
      match m.persist now .relayed key message with
      | (.error cause, m) => (.failed cause, m)
      | (.ok (), m) => (⟨.ok .pending, []⟩, m)

/- An event meets what waits under its key. -/
def meet
    (now : Readings)
    (key : String)
    (event : Event)
    (m : Matcher) : Reply × Matcher :=
  match event with
  | .sent message => m.meetSent now key message
  | .received message => m.meetReceived now key message
  | .relayed message => m.meetRelayed now key message

------------------------------------------------------------
-- Calls
------------------------------------------------------------

/- Handles an event. -/
def handle
    (now : Readings)
    (event : Event)
    (m : Matcher) : Reply × Matcher :=
  if m.stopped then
    (.rejected .stopped, m)
  else
    match event.key with
    | .error reason => (.rejected reason, m)
    | .ok key => m.meet now key event

/- Handles events, one after the other. -/
def handleAll
    (now : Readings) :
    List Event → Matcher → List Reply × Matcher
  | [], m => ([], m)
  | event :: rest, m =>
      let (reply, m) := m.handle now event
      let (replies, m) := handleAll now rest m
      (reply :: replies, m)

/-
  Removes the entries of the given keys and cancels their
  tasks, up to the first that does not decode.
-/
def clearKeys :
    List (Namespace × String) →
    Matcher →
    Except StoreError Nat × Matcher
  | [], m => (.ok 0, m)
  | (n, key) :: rest, m =>
      match
        m.store.onLevel n.name
          fun l => l.take (PendingRecord Json) key
      with
      | (.error cause, _) => (.error cause, m)
      | (.ok none, _) => clearKeys rest m
      | (.ok (some record), store) =>
          let m := { m with store }
          let (count, m) :=
            clearKeys rest (m.cancel record.expiryTask)
          (count.map (· + 1), m)

/-
  Removes all entries of a subscription and tells how many
  there were.
-/
def clear
    (subscription : String)
    (m : Matcher) : Except MatchError Nat × Matcher :=
  if m.stopped then
    (.error .stopped, m)
  else if ValidSubscription subscription then
    let keys := Pending.subscriptionKeys subscription m.store
    match m.clearKeys keys with
    | (.ok count, m) => (.ok count, m)
    | (.error cause, m) => (.error (.store cause), m)
  else
    (.error (.invalidSubscription subscription), m)

/- Stops the matcher; it turns away all further calls. -/
def stop
    (m : Matcher) : Matcher :=
  { m with stopped := true }

/-
  The levels that the matcher opens when it begins: the queue
  and the namespaces.
-/
def levels : List String :=
  TaskQueue.level :: Namespace.all.map Namespace.name

/- A matcher that begins on a store. -/
def begin
    (expiry : Nat)
    (tags : TagSource)
    (store : Store) : Matcher :=
  { store := levels.foldl Store.ensure store
    tags
    expiry
    stopped := false }

end Matcher

end JourneyMatch
