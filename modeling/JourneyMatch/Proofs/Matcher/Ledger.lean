import Mathlib.Logic.Function.Basic
import JourneyMatch.Proofs.Matcher.Meeting
import JourneyMatch.Proofs.Pending.Decoding

/-
  This file defines a ledger of what waits. It tells of every
  entry which event was stored, when, and when it is due, but
  not the tag of its task, which no call can see. The calls of
  the matcher are restated on it: an event reads and changes
  what is held under its own key, and a removal what is held
  under the keys that it removes.

  Key definitions include:
    * `Holding`
    * `Holdings`
    * `Holdings.meet`
    * `Ledger`
    * `Ledger.handle`
    * `Ledger.clearKeys`
    * `Ledger.sweep`
    * `Ledger.AgreeUnder`

  Main statements:
    * `Ledger.AgreeUnder.handle`
    * `Ledger.AgreeUnder.clearKeys`
    * `Ledger.agreeUnder_clearKeys`
-/

namespace JourneyMatch

------------------------------------------------------------
-- Holdings
------------------------------------------------------------

/-
  An event that waits, when it is due, when it was stored,
  and whether its task is still in the queue. The task of an
  event that was stored over an unreadable one is not.
-/
structure Holding where
  event : Event
  due : Instant
  storedAt : Int64
  scheduled : Bool

namespace Holding

/- The holding of an event that is stored now. -/
def new
    (now : Readings)
    (expiry : Nat)
    (e : Event)
    (scheduled : Bool) : Holding :=
  { event := e
    due := Janitor.due now.scheduled expiry
    storedAt := Int64.ofInt now.stored.unixMillis
    scheduled }

/- Whether a sweep at an instant removes it. -/
def expires
    (now : Instant)
    (h : Holding) : Bool :=
  h.scheduled && decide (taskKey h.due "" < dueBound now)

/-
  Whether it is read without the form of its message, as a
  removal by its key has to.
-/
def release
    (h : Holding) : Except StoreError Unit :=
  match Wire.reread 126 h.event.json with
  | .ok _ => .ok ()
  | .error cause => .error (.codec cause)

end Holding

/- What is held under one key, by namespace. -/
abbrev Holdings :=
  Namespace → Option Holding

/- What is told of a relay that was seen before its message. -/
def relayNotices
    (message : Sent) :
    Option Event → List Notification
  | some (.relayed r) => [.ofRelay message r]
  | _ => []

namespace Holdings

/- The event that is read in a namespace. -/
def event?
    (n : Namespace)
    (hs : Holdings) : Except StoreError (Option Event) :=
  match hs n with
  | none => .ok none
  | some h => h.event.reread.map some

/- Holds an event, in place of one that was there. -/
def put
    (now : Readings)
    (expiry : Nat)
    (e : Event)
    (scheduled : Bool)
    (hs : Holdings) : Holdings :=
  Function.update hs e.nameSpace
    (some (.new now expiry e scheduled))

/-
  Stores an event. If the one that was there is not read, the
  call fails, and the event is left without a task.
-/
def persist
    (now : Readings)
    (expiry : Nat)
    (e : Event)
    (hs : Holdings) : Except StoreError Unit × Holdings :=
  match hs.event? e.nameSpace with
  | .ok _ => (.ok (), hs.put now expiry e true)
  | .error cause => (.error cause, hs.put now expiry e false)

/- Stores an event that does not meet anything. -/
def wait
    (now : Readings)
    (expiry : Nat)
    (e : Event)
    (hs : Holdings) : Reply × Holdings :=
  match hs.persist now expiry e with
  | (.error cause, hs) => (.failed cause, hs)
  | (.ok (), hs) => (⟨.ok .pending, []⟩, hs)

/- A sent message meets what is held. -/
def meetSent
    (now : Readings)
    (expiry : Nat)
    (message : Sent)
    (hs : Holdings) : Reply × Holdings :=
  match hs.event? .awaitingOrigin, hs.event? .relayed with
  | .error cause, _ => (.failed cause, hs)
  | .ok _, .error cause => (.failed cause, hs)
  | .ok (some (.received inbound)), .ok relayed =>
      (⟨.ok .matched,
          relayNotices message relayed
            ++ [.ofLeg message inbound]⟩,
        Function.update
          (Function.update hs .awaitingOrigin none)
          .relayed none)
  | .ok _, .ok relayed =>
      match hs.persist now expiry (.sent message) with
      | (.error cause, hs) => (.failed cause, hs)
      | (.ok (), hs) =>
          (⟨.ok .pending, relayNotices message relayed⟩,
            Function.update hs .relayed none)

/- A received message meets what is held. -/
def meetReceived
    (now : Readings)
    (expiry : Nat)
    (message : Received)
    (hs : Holdings) : Reply × Holdings :=
  match hs.event? .awaitingDestination with
  | .error cause => (.failed cause, hs)
  | .ok (some (.sent outbound)) =>
      (⟨.ok .matched, [.ofLeg outbound message]⟩,
        Function.update hs .awaitingDestination none)
  | .ok _ => hs.wait now expiry (.received message)

/- A relayed message meets what is held. -/
def meetRelayed
    (now : Readings)
    (expiry : Nat)
    (message : Relayed)
    (hs : Holdings) : Reply × Holdings :=
  match hs.event? .awaitingDestination with
  | .error cause => (.failed cause, hs)
  | .ok (some (.sent outbound)) =>
      (⟨.ok .relayed, [.ofRelay outbound message]⟩, hs)
  | .ok _ => hs.wait now expiry (.relayed message)

/- An event meets what is held under its key. -/
def meet
    (now : Readings)
    (expiry : Nat)
    (e : Event)
    (hs : Holdings) : Reply × Holdings :=
  match e with
  | .sent message => hs.meetSent now expiry message
  | .received message => hs.meetReceived now expiry message
  | .relayed message => hs.meetRelayed now expiry message

section Ways

variable {now : Readings}
variable {expiry : Nat}
variable {e : Event}
variable {hs : Holdings}
variable {cause : StoreError}

theorem meet_unread
    (hRead : hs.event? e.counterpart = .error cause) :
    hs.meet now expiry e = (.failed cause, hs) := by
  cases e with
  | sent message =>
      simp only [Event.counterpart] at hRead
      simp only [meet, meetSent, hRead]
  | received message =>
      simp only [Event.counterpart] at hRead
      simp only [meet, meetReceived, hRead]
  | relayed message =>
      simp only [Event.counterpart] at hRead
      simp only [meet, meetRelayed, hRead]

theorem meet_unreadRelay
    {message : Sent}
    {inbound : Option Event}
    (hInbound : hs.event? .awaitingOrigin = .ok inbound)
    (hRead : hs.event? .relayed = .error cause) :
    hs.meet now expiry (.sent message) = (.failed cause, hs) := by
  simp only [meet, meetSent, hInbound, hRead]

theorem meet_sentMatched
    {message : Sent}
    {inbound : Received}
    {relayed : Option Event}
    (hInbound :
      hs.event? .awaitingOrigin = .ok (some (.received inbound)))
    (hRelayed : hs.event? .relayed = .ok relayed) :
    hs.meet now expiry (.sent message)
      = (⟨.ok .matched,
          relayNotices message relayed
            ++ [.ofLeg message inbound]⟩,
        Function.update
          (Function.update hs .awaitingOrigin none)
          .relayed none) := by
  simp only [meet, meetSent, hInbound, hRelayed]

theorem meet_sentWaits
    {message : Sent}
    {relayed old : Option Event}
    (hInbound : hs.event? .awaitingOrigin = .ok none)
    (hRelayed : hs.event? .relayed = .ok relayed)
    (hOld : hs.event? .awaitingDestination = .ok old) :
    hs.meet now expiry (.sent message)
      = (⟨.ok .pending, relayNotices message relayed⟩,
        Function.update
          (hs.put now expiry (.sent message) true)
          .relayed none) := by
  simp only [meet, meetSent, hInbound, hRelayed, persist,
    Event.nameSpace, hOld]

theorem meet_receivedMatched
    {message : Received}
    {outbound : Sent}
    (hOutbound :
      hs.event? .awaitingDestination
        = .ok (some (.sent outbound))) :
    hs.meet now expiry (.received message)
      = (⟨.ok .matched, [.ofLeg outbound message]⟩,
        Function.update hs .awaitingDestination none) := by
  simp only [meet, meetReceived, hOutbound]

theorem meet_relayedTold
    {message : Relayed}
    {outbound : Sent}
    (hOutbound :
      hs.event? .awaitingDestination
        = .ok (some (.sent outbound))) :
    hs.meet now expiry (.relayed message)
      = (⟨.ok .relayed, [.ofRelay outbound message]⟩, hs) := by
  simp only [meet, meetRelayed, hOutbound]

theorem meet_receivedWaits
    {message : Received}
    {old : Option Event}
    (hOutbound : hs.event? .awaitingDestination = .ok none)
    (hOld : hs.event? .awaitingOrigin = .ok old) :
    hs.meet now expiry (.received message)
      = (⟨.ok .pending, []⟩,
        hs.put now expiry (.received message) true) := by
  simp only [meet, meetReceived, hOutbound, wait, persist,
    Event.nameSpace, hOld]

theorem meet_relayedWaits
    {message : Relayed}
    {old : Option Event}
    (hOutbound : hs.event? .awaitingDestination = .ok none)
    (hOld : hs.event? .relayed = .ok old) :
    hs.meet now expiry (.relayed message)
      = (⟨.ok .pending, []⟩,
        hs.put now expiry (.relayed message) true) := by
  simp only [meet, meetRelayed, hOutbound, wait, persist,
    Event.nameSpace, hOld]

theorem meet_overwritten
    (hCounterpart : hs.event? e.counterpart = .ok none)
    (hRelayed :
      e.nameSpace = .awaitingDestination →
        ∃ relayed, hs.event? .relayed = .ok relayed)
    (hOwn : hs.event? e.nameSpace = .error cause) :
    hs.meet now expiry e
      = (.failed cause, hs.put now expiry e false) := by
  cases e with
  | sent message =>
      rcases hRelayed rfl with ⟨relayed, hRelay⟩
      simp only [Event.counterpart] at hCounterpart
      simp only [meet, meetSent, hCounterpart, hRelay, persist,
        hOwn]
  | received message =>
      simp only [Event.counterpart] at hCounterpart
      simp only [meet, meetReceived, hCounterpart, wait, persist,
        hOwn]
  | relayed message =>
      simp only [Event.counterpart] at hCounterpart
      simp only [meet, meetRelayed, hCounterpart, wait, persist,
        hOwn]

end Ways

/- Removes what is held in a namespace, if it is read. -/
def take
    (n : Namespace)
    (hs : Holdings) : Except StoreError Bool × Holdings :=
  match hs n with
  | none => (.ok false, hs)
  | some h =>
      match h.release with
      | .ok () => (.ok true, Function.update hs n none)
      | .error cause => (.error cause, hs)

/- What a sweep leaves. -/
def sweep
    (now : Instant)
    (hs : Holdings) : Holdings :=
  fun n => (hs n).filter (!·.expires now)

end Holdings

------------------------------------------------------------
-- Ledgers
------------------------------------------------------------

/- What is held, by key. -/
abbrev Ledger :=
  String → Holdings

namespace Ledger

/- The ledger that holds nothing. -/
def empty : Ledger :=
  fun _ _ => none

/- Puts something, or nothing, in a single place. -/
def set
    (n : Namespace)
    (key : String)
    (h : Option Holding)
    (l : Ledger) : Ledger :=
  Function.update l key (Function.update (l key) n h)

theorem set_apply
    (n o : Namespace)
    (key other : String)
    (h : Option Holding)
    (l : Ledger) :
    l.set n key h other o
      = if o = n ∧ other = key then h else l other o := by
  unfold set
  by_cases hKey : other = key
  · subst hKey
    rw [Function.update_self, Function.update_apply]
    simp
  · rw [Function.update_of_ne hKey]
    simp [hKey]

/- Nothing changes where the same is put. -/
theorem set_eq_self
    {n : Namespace}
    {key : String}
    {h : Option Holding}
    {l : Ledger}
    (hHeld : l key n = h) :
    l.set n key h = l := by
  funext other o
  rw [set_apply]
  split
  · rename_i hHere
    rw [hHere.1, hHere.2, hHeld]
  · rfl

/- Two places of one key are put at once. -/
theorem set_set
    (n o : Namespace)
    (key : String)
    (h g : Option Holding)
    (l : Ledger) :
    (l.set n key h).set o key g
      = Function.update l key
        (Function.update (Function.update (l key) n h) o g) := by
  simp only [set, Function.update_self, Function.update_idem]

/- An event is put under its key. -/
theorem set_new
    (now : Readings)
    (expiry : Nat)
    (key : String)
    (e : Event)
    (scheduled : Bool)
    (l : Ledger) :
    l.set e.nameSpace key (some (.new now expiry e scheduled))
      = Function.update l key
        ((l key).put now expiry e scheduled) :=
  rfl

/- An event meets what is held under a key. -/
def meet
    (now : Readings)
    (expiry : Nat)
    (key : String)
    (e : Event)
    (l : Ledger) : Reply × Ledger :=
  let (reply, hs) := (l key).meet now expiry e
  (reply, Function.update l key hs)

/- Handles an event, as a matcher that runs does. -/
def handle
    (now : Readings)
    (expiry : Nat)
    (e : Event)
    (l : Ledger) : Reply × Ledger :=
  match e.key with
  | .error reason => (.rejected reason, l)
  | .ok key => l.meet now expiry key e

theorem meet_eq
    {now : Readings}
    {expiry : Nat}
    {key : String}
    {e : Event}
    {l : Ledger}
    {reply : Reply}
    {hs : Holdings}
    (hMeet : (l key).meet now expiry e = (reply, hs)) :
    l.meet now expiry key e
      = (reply, Function.update l key hs) := by
  rw [meet, hMeet]

/- Removes what is held under a key of a namespace. -/
def take
    (n : Namespace)
    (key : String)
    (l : Ledger) : Except StoreError Bool × Ledger :=
  let (found, hs) := (l key).take n
  (found, Function.update l key hs)

/- A removal finds nothing, or fails, or empties a place. -/
theorem take_eq
    (n : Namespace)
    (key : String)
    (l : Ledger) :
    l.take n key
      = match l key n with
        | none => (.ok false, l)
        | some h =>
            match h.release with
            | .ok () => (.ok true, l.set n key none)
            | .error cause => (.error cause, l) := by
  unfold take Holdings.take
  cases l key n with
  | none => simp only [Function.update_eq_self]
  | some h =>
      dsimp only
      cases h.release with
      | ok => rfl
      | error cause => simp only [Function.update_eq_self]

/- Removes what is held, up to the first that is not read. -/
def clearKeys :
    List (Namespace × String) →
    Ledger →
    Except StoreError Nat × Ledger
  | [], l => (.ok 0, l)
  | (n, key) :: rest, l =>
      match l.take n key with
      | (.error cause, l) => (.error cause, l)
      | (.ok false, l) => clearKeys rest l
      | (.ok true, l) =>
          let (count, l) := clearKeys rest l
          (count.map (· + 1), l)

/- What a sweep leaves. -/
def sweep
    (now : Instant)
    (l : Ledger) : Ledger :=
  fun key => (l key).sweep now

------------------------------------------------------------
-- Ledgers that agree
------------------------------------------------------------

/- Whether ledgers hold the same under keys of a beginning. -/
def AgreeUnder
    (start : String)
    (l t : Ledger) : Prop :=
  ∀ key, Level.startsWith start key = true → l key = t key

variable {start key : String}
variable {l t : Ledger}

/- Nothing is seen of a change under another key. -/
theorem AgreeUnder.update
    (hAgree : l.AgreeUnder start t)
    (hKey : Level.startsWith start key = false)
    (hs : Holdings) :
    AgreeUnder start (Function.update l key hs) t := by
  intro other hOther
  rw [Function.update_of_ne]
  · exact hAgree other hOther
  · intro hSame
    rw [hSame, hKey] at hOther
    cases hOther

/- The same change keeps ledgers in agreement. -/
theorem AgreeUnder.update_both
    (hAgree : l.AgreeUnder start t)
    (key : String)
    (hs : Holdings) :
    AgreeUnder start
      (Function.update l key hs) (Function.update t key hs) := by
  intro other hOther
  by_cases hSame : other = key
  · subst hSame
    rw [Function.update_self, Function.update_self]
  · rw [Function.update_of_ne hSame, Function.update_of_ne hSame]
    exact hAgree other hOther

/- An event meets the same in ledgers that agree on its key. -/
theorem AgreeUnder.meet
    (hAgree : l.AgreeUnder start t)
    (hKey : Level.startsWith start key = true)
    (now : Readings)
    (expiry : Nat)
    (e : Event) :
    (l.meet now expiry key e).1 = (t.meet now expiry key e).1
      ∧ AgreeUnder start
        (l.meet now expiry key e).2
        (t.meet now expiry key e).2 := by
  unfold Ledger.meet
  rw [hAgree key hKey]
  exact ⟨rfl, hAgree.update_both key _⟩

/- So an event whose key is seen is handled in the same way. -/
theorem AgreeUnder.handle
    {e : Event}
    (hAgree : l.AgreeUnder start t)
    (hKey :
      ∀ key, e.key = .ok key →
        Level.startsWith start key = true)
    (now : Readings)
    (expiry : Nat) :
    (l.handle now expiry e).1 = (t.handle now expiry e).1
      ∧ AgreeUnder start
        (l.handle now expiry e).2
        (t.handle now expiry e).2 := by
  unfold Ledger.handle
  cases hCase : e.key with
  | error reason => exact ⟨rfl, hAgree⟩
  | ok key => exact hAgree.meet (hKey key hCase) now expiry e

/- Nothing is seen of an event with another key. -/
theorem agreeUnder_handle
    {e : Event}
    (hAgree : l.AgreeUnder start t)
    (hKey :
      ∀ key, e.key = .ok key →
        Level.startsWith start key = false)
    (now : Readings)
    (expiry : Nat) :
    AgreeUnder start (l.handle now expiry e).2 t := by
  unfold Ledger.handle
  cases hCase : e.key with
  | error reason => exact hAgree
  | ok key => exact hAgree.update (hKey key hCase) _

/- A removal finds the same in ledgers that agree on it. -/
theorem AgreeUnder.take
    (hAgree : l.AgreeUnder start t)
    (hKey : Level.startsWith start key = true)
    (n : Namespace) :
    (l.take n key).1 = (t.take n key).1
      ∧ AgreeUnder start (l.take n key).2 (t.take n key).2 := by
  unfold Ledger.take
  rw [hAgree key hKey]
  exact ⟨rfl, hAgree.update_both key _⟩

theorem AgreeUnder.clearKeys
    {keys : List (Namespace × String)}
    (hAgree : l.AgreeUnder start t)
    (hKeys : ∀ p ∈ keys, Level.startsWith start p.2 = true) :
    (l.clearKeys keys).1 = (t.clearKeys keys).1
      ∧ AgreeUnder start
        (l.clearKeys keys).2 (t.clearKeys keys).2 := by
  induction keys generalizing l t with
  | nil => exact ⟨rfl, hAgree⟩
  | cons head rest ih =>
      rcases head with ⟨n, key⟩
      rcases hAgree.take (hKeys _ List.mem_cons_self) n with
        ⟨hFound, hAfter⟩
      have hRest :=
        ih hAfter fun p hMem => hKeys p (List.mem_cons_of_mem _ hMem)
      unfold Ledger.clearKeys
      rcases hFirst : l.take n key with ⟨found, l'⟩
      rcases hSecond : t.take n key with ⟨other, t'⟩
      rw [hFirst, hSecond] at hFound hAfter hRest
      dsimp only at hFound hAfter hRest
      subst hFound
      rcases found with cause | _ | _
      · exact ⟨rfl, hAfter⟩
      · exact hRest
      · exact ⟨congrArg (Except.map (· + 1)) hRest.1, hRest.2⟩

/- Removing other keys is not seen. -/
theorem agreeUnder_clearKeys
    {keys : List (Namespace × String)}
    (hAgree : l.AgreeUnder start t)
    (hKeys : ∀ p ∈ keys, Level.startsWith start p.2 = false) :
    AgreeUnder start (l.clearKeys keys).2 t := by
  induction keys generalizing l with
  | nil => exact hAgree
  | cons head rest ih =>
      rcases head with ⟨n, key⟩
      have hAfter : AgreeUnder start (l.take n key).2 t :=
        hAgree.update (hKeys _ List.mem_cons_self) _
      have hRest :=
        ih hAfter fun p hMem => hKeys p (List.mem_cons_of_mem _ hMem)
      unfold Ledger.clearKeys
      rcases hTake : l.take n key with ⟨found, l'⟩
      rw [hTake] at hAfter hRest
      rcases found with cause | _ | _
      · exact hAfter
      · exact hRest
      · exact hRest

theorem AgreeUnder.sweep
    (hAgree : l.AgreeUnder start t)
    (now : Instant) :
    AgreeUnder start (l.sweep now) (t.sweep now) := by
  intro key hKey
  unfold Ledger.sweep
  rw [hAgree key hKey]

end Ledger

end JourneyMatch
