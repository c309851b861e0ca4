import JourneyMatch.Proofs.Matcher.Leg
import JourneyMatch.Proofs.Matcher.Place
import Mathlib.Logic.Function.Basic

/-
  This file defines a board that keeps one place for each leg
  of each message, and shows that a matcher is such a board.
  The events that come to a matcher, in any order and of any
  legs, give the replies of the board, and the entries that
  they leave are what the board has.

  Key definitions include:
    * `Event.StorableAmong`
    * `Board`
    * `Board.handle`
    * `Board.feed`
    * `Board.of`
    * `Board.Shows`

  Main statements:
    * `Board.Shows.handle`
    * `Matcher.Reachable.feed_board`
-/

namespace JourneyMatch

------------------------------------------------------------
-- Events that can be kept
------------------------------------------------------------

namespace Event

/-
  Whether an event is storable and its identity, if it has
  one, is among those given.
-/
structure StorableAmong
    (identities : String → Prop)
    (e : Event) : Prop where
  storable : e.Storable
  identity : ∀ i, e.identity = some i → identities i

theorem StorableAmong.proper
    {identities : String → Prop}
    {e : Event}
    {id : LegId}
    (hEvent : e.StorableAmong identities)
    (hLeg : e.legId? = .ok id) :
    id.Proper identities := by
  rcases legId?_eq_ok_iff.mp hLeg with ⟨hValid, -, hIdentity, -⟩
  exact ⟨hValid, hEvent.identity _ hIdentity⟩

end Event

------------------------------------------------------------
-- Boards
------------------------------------------------------------

/- A place for each leg. -/
abbrev Board :=
  LegId → Place

namespace Board

/- An event comes to the place of its leg. -/
def handle
    (e : Event)
    (b : Board) : Reply × Board :=
  match e.legId? with
  | .error reason => (.rejected reason, b)
  | .ok id =>
      let (reply, place) := (b id).meet e
      (reply, Function.update b id place)

/- Events come one after the other. -/
def feed :
    List Event → Board → List Reply × Board
  | [], b => ([], b)
  | e :: rest, b =>
      let (reply, b) := b.handle e
      let (replies, b) := feed rest b
      (reply :: replies, b)

/- The board that the entries of a store show. -/
def of
    (s : Store) : Board :=
  fun id => .of id.key s

/-
  Whether a board has what the entries of a store are: each
  leg waits under its key, and nothing else waits.
-/
structure Shows
    (identities : String → Prop)
    (s : Store)
    (b : Board) : Prop where
  places :
    ∀ id : LegId,
      id.Proper identities → (b id).Shown id.key s
  keys :
    ∀ n key text,
      Pending.text? n key s = some text →
        ∃ id : LegId, id.Proper identities ∧ id.key = key

end Board

------------------------------------------------------------
-- Calls
------------------------------------------------------------

namespace Board

variable {identities : String → Prop}

/- A meeting with an event is one with the place of its leg. -/
theorem Shows.update
    {now : Readings}
    {m after : Matcher}
    {e : Event}
    {reply : Reply}
    {id : LegId}
    {b : Board}
    (hSeparates : Separates identities)
    (hMeeting : Matcher.Meeting now id.key m e reply after)
    (hEvent : e.StorableAmong identities)
    (hLeg : e.legId? = .ok id)
    (hShows : b.Shows identities m.store) :
    Shows identities after.store
      (Function.update b id ((b id).meet e).2) := by
  have hProper := hEvent.proper hLeg
  constructor
  · intro other hOther
    by_cases hSame : other = id
    · subst hSame
      rw [Function.update_self]
      exact
        (hMeeting.shown hEvent.storable
          (hShows.places other hOther)).2
    · rw [Function.update_of_ne hSame]
      apply (hShows.places other hOther).congr
      intro n
      apply hMeeting.text?_of_ne
      intro hKey
      exact hSame
        (LegId.key_injective hSeparates hOther hProper hKey)
  · intro n key text hText
    rcases hMeeting.text?_cases hText with
      hOld | ⟨-, hKey, -⟩
    · exact hShows.keys n key text hOld
    · exact ⟨id, hProper, hKey.symm⟩

/-
  A call of a running matcher gives the reply of the board
  that it shows, and shows the board afterwards.
-/
theorem Shows.handle
    {m : Matcher}
    {e : Event}
    {b : Board}
    (hSeparates : Separates identities)
    (hRuns : m.stopped = false)
    (hEvent : e.StorableAmong identities)
    (hShows : b.Shows identities m.store)
    (now : Readings) :
    (m.handle now e).1 = (b.handle e).1
      ∧ (b.handle e).2.Shows identities
        (m.handle now e).2.store := by
  unfold Board.handle
  cases hLeg : e.legId? with
  | error reason =>
      have hKey : e.key = .error reason := by
        rw [e.key_eq_map_legId?, hLeg]
        rfl
      rw [Matcher.handle_of_reason now hRuns hKey]
      exact ⟨rfl, hShows⟩
  | ok id =>
      have hKey : e.key = .ok id.key :=
        Event.key_eq_ok_iff.mpr ⟨id, hLeg, rfl⟩
      rw [Matcher.handle_of_key now hRuns hKey]
      have hMeeting := m.meeting_meet now id.key e
      exact
        ⟨(hMeeting.shown hEvent.storable
            (hShows.places id (hEvent.proper hLeg))).1,
          hShows.update hSeparates hMeeting hEvent hLeg⟩

/- So it is for events that arrive one after the other. -/
theorem Shows.feed
    (hSeparates : Separates identities)
    {events : List (Readings × Event)}
    (hEvents : ∀ a ∈ events, a.2.StorableAmong identities)
    {m : Matcher}
    {b : Board}
    (hRuns : m.stopped = false)
    (hShows : b.Shows identities m.store) :
    (m.feed events).1 = (b.feed (events.map Prod.snd)).1
      ∧ (b.feed (events.map Prod.snd)).2.Shows identities
        (m.feed events).2.store := by
  induction events generalizing m b with
  | nil => exact ⟨rfl, hShows⟩
  | cons first rest ih =>
      rcases first with ⟨now, e⟩
      rcases List.forall_mem_cons.mp hEvents with
        ⟨hEvent, hRest⟩
      rcases hShows.handle hSeparates hRuns hEvent now with
        ⟨hReply, hAfter⟩
      have hStillRuns :=
        (Matcher.stopped_handle now e m).trans hRuns
      rcases ih hRest hStillRuns hAfter with ⟨hReplies, hLast⟩
      refine ⟨?_, hLast⟩
      simp only [Matcher.feed, Board.feed, List.map_cons]
      rw [hReply, hReplies]

end Board

------------------------------------------------------------
-- Histories
------------------------------------------------------------

namespace Matcher

namespace Reachable

variable {identities : String → Prop}
variable {expiry : Nat}
variable {tags : TagSource}
variable {m : Matcher}

/- A history of storable events shows a board. -/
theorem shows_of
    (hReachable :
      Reachable (Event.StorableAmong identities) expiry tags
        m) :
    (Board.of m.store).Shows identities m.store := by
  constructor
  · intro id hProper
    exact
      shown_of hReachable.authored
        (fun e hEvent => hEvent.storable)
        hReachable.sides_apart id.key
  · intro n key text hText
    rcases hReachable.authored n key text hText with
      ⟨e, task, storedAt, hEvent, -, hKey, -⟩
    rcases Event.key_eq_ok_iff.mp hKey with ⟨id, hLeg, hSame⟩
    exact ⟨id, hEvent.proper hLeg, hSame⟩

/-
  In every history of storable events, the entries show a
  board, and whatever events come next, each call gives the
  reply of the board, and the entries at last are what the
  board has.
-/
theorem feed_board
    (hSeparates : Separates identities)
    (hReachable :
      Reachable (Event.StorableAmong identities) expiry tags m)
    (events : List (Readings × Event))
    (hEvents :
      ∀ a ∈ events, a.2.StorableAmong identities) :
    (Board.of m.store).Shows identities m.store
      ∧ (m.feed events).1
        = ((Board.of m.store).feed (events.map Prod.snd)).1
      ∧ ((Board.of m.store).feed
          (events.map Prod.snd)).2.Shows identities
            (m.feed events).2.store := by
  have hShows := hReachable.shows_of
  exact
    ⟨hShows,
      hShows.feed hSeparates hEvents hReachable.stopped_eq⟩

/- A matcher that begins shows a board where nothing waits. -/
theorem of_begin
    (expiry : Nat)
    (tags : TagSource) :
    Board.of (begin expiry tags .empty).store
      = fun _ => ⟨.empty, none⟩ := by
  funext id
  apply Place.Shown.of_eq
  intro n
  rw [Pending.message?_of_text?_eq_none
    (text?_begin expiry tags n id.key)]
  cases n <;> rfl

/- A matcher that has seen the relay of the first leg. -/
def seenRelayed : Matcher :=
  (begin 0 .counted .empty).move
    (.event (.still ⟨0⟩) (.relayed seenHopRelay))

/- The legs of the message, as far as their events tell. -/
def seenLegId
    (chain : String) : LegId :=
  ⟨"journeys", "0x01", ⟨chain⟩⟩

/- What comes next, the last leg before the first is over. -/
def seenEvents : List (Readings × Event) :=
  [(.still ⟨1⟩, .sent seenHopSent),
    (.still ⟨2⟩, .received seenLastReceived),
    (.still ⟨3⟩, .received seenHopReceived),
    (.still ⟨4⟩, .sent seenLastSent)]

/- A board on which the relay waits tells of both legs. -/
theorem feed_seenEvents
    {b : Board}
    (hMiddle :
      b (seenLegId "middle") = ⟨.empty, some seenHopRelay⟩)
    (hTarget : b (seenLegId "target") = ⟨.empty, none⟩) :
    (b.feed (seenEvents.map Prod.snd)).1
        = [⟨.ok .pending, [seenRelayNotice]⟩,
          ⟨.ok .pending, []⟩,
          ⟨.ok .matched, [seenHopNotice]⟩,
          ⟨.ok .matched, [seenLastNotice]⟩]
      ∧ ∀ chain ∈ ["middle", "target"],
        (b.feed (seenEvents.map Prod.snd)).2 (seenLegId chain)
          = ⟨.empty, none⟩ := by
  have hHopSent :
      (Event.sent seenHopSent).legId?
        = .ok (seenLegId "middle") := rfl
  have hLastReceived :
      (Event.received seenLastReceived).legId?
        = .ok (seenLegId "target") := rfl
  have hHopReceived :
      (Event.received seenHopReceived).legId?
        = .ok (seenLegId "middle") := rfl
  have hLastSent :
      (Event.sent seenLastSent).legId?
        = .ok (seenLegId "target") := rfl
  have hNe : seenLegId "target" ≠ seenLegId "middle" := by
    decide
  have hRelay :
      Place.told seenHopSent (some seenHopRelay)
        = [seenRelayNotice] := rfl
  have hHop :
      Notification.ofLeg seenHopSent seenHopReceived
        = seenHopNotice := rfl
  have hLast :
      Place.told seenLastSent none
          ++ [.ofLeg seenLastSent seenLastReceived]
        = [seenLastNotice] := rfl
  simp [seenEvents, Board.feed, Board.handle, Place.meet, hNe,
    hNe.symm, hHopSent, hLastReceived, hHopReceived, hLastSent,
    hMiddle, hTarget, hRelay, hHop, hLast]

/-
  The message tells of the relay when it leaves and waits; it
  completes a hop where it arrives first, and the journey
  where its last leg leaves after it has arrived. Nothing
  waits for it in the end.
-/
theorem feed_board_seenSent :
    (seenRelayed.feed seenEvents).1
        = [⟨.ok .pending, [seenRelayNotice]⟩,
          ⟨.ok .pending, []⟩,
          ⟨.ok .matched, [seenHopNotice]⟩,
          ⟨.ok .matched, [seenLastNotice]⟩]
      ∧ ∀ chain ∈ ["middle", "target"],
        Place.Shown (seenLegId chain).key
          (seenRelayed.feed seenEvents).2.store
          ⟨.empty, none⟩ := by
  have hSeparates : Separates (· = "0x01") := by
    intro a b hFirst hSecond _
    exact hFirst.trans hSecond.symm
  have hProper :
      ∀ chain, (seenLegId chain).Proper (· = "0x01") :=
    fun chain =>
      ⟨(by decide : ValidSubscription "journeys"), rfl⟩
  have hStorable := Event.storable_seenLegs
  simp only [List.forall_mem_cons] at hStorable
  rcases hStorable with
    ⟨hHopSent, hHopReceived, hHopRelay, hLastSent,
      hLastReceived, -⟩
  have hNamed :
      ∀ e : Event,
        e.identity = some "0x01" →
          e.Storable → e.StorableAmong (· = "0x01") :=
    fun e hName hKept =>
      ⟨hKept, fun i hIdentity =>
        Option.some.inj (hIdentity.symm.trans hName)⟩
  have hRelay := hNamed _ rfl hHopRelay
  have hReachable :
      Reachable (Event.StorableAmong (· = "0x01")) 0 .counted
        seenRelayed :=
    .step (.event (.still ⟨0⟩) (.relayed seenHopRelay)) .start
      hRelay
  have hEvents :
      ∀ a ∈ seenEvents, a.2.StorableAmong (· = "0x01") := by
    simp only [seenEvents, List.forall_mem_cons]
    exact
      ⟨hNamed _ rfl hHopSent, hNamed _ rfl hLastReceived,
        hNamed _ rfl hHopReceived, hNamed _ rfl hLastSent,
        List.forall_mem_nil _⟩
  -- the board that is shown before, at the two legs
  have hStart :
      Reachable (Event.StorableAmong (· = "0x01")) 0 .counted
        (begin 0 .counted .empty) :=
    .start
  have hBefore :=
    (hStart.shows_of.handle hSeparates rfl hRelay (.still ⟨0⟩)).2
  rw [of_begin] at hBefore
  have hMiddle :
      Board.of seenRelayed.store (seenLegId "middle")
        = ⟨.empty, some seenHopRelay⟩ :=
    (hBefore.places _ (hProper "middle")).of_eq
  have hTarget :
      Board.of seenRelayed.store (seenLegId "target")
        = ⟨.empty, none⟩ :=
    (hBefore.places _ (hProper "target")).of_eq
  rcases feed_board hSeparates hReachable seenEvents hEvents with
    ⟨-, hReplies, hAfter⟩
  have hRun := feed_seenEvents hMiddle hTarget
  refine ⟨hReplies.trans hRun.1, fun chain hMem => ?_⟩
  rw [← hRun.2 chain hMem]
  exact hAfter.places _ (hProper chain)

end Reachable

end Matcher

end JourneyMatch
