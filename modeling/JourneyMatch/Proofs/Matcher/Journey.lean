import JourneyMatch.Proofs.Matcher.Place
import JourneyMatch.Proofs.Matcher.Subscription
import Mathlib.Data.List.FinRange
import Mathlib.Data.List.Permutation
import Mathlib.Logic.Function.Basic

/-
  This file shows that a journey is told completely, in
  whatever order it is seen. Each leg of a journey is sent
  and received, and may be relayed in between. Each leg has a
  key of its own, and a place that no other event comes to,
  so that the events of a leg can be taken out of all that
  arrive.

  Key definitions include:
    * `Place.feed`
    * `Journey`
    * `Journey.events`
    * `Journey.Arrives`
    * `Journey.legNotice`
    * `Journey.relayNotices`

  Main statements:
    * `Place.feed_sides`
    * `Place.feed_sides_relay`
    * `Journey.told_feed`
    * `Matcher.Reachable.journey_told`
-/

namespace JourneyMatch

------------------------------------------------------------
-- The events of a place
------------------------------------------------------------

namespace Place

/- Events come to a place; what is told is put in a row. -/
def feed :
    List Event → Place → List Notification × Place
  | [], p => ([], p)
  | e :: rest, p =>
      let (reply, p) := p.meet e
      let (told, p) := feed rest p
      (reply.notifications ++ told, p)

/- Two sides meet once, whichever comes first. -/
theorem feed_sides
    {sent : Sent}
    {received : Received}
    {events : List Event}
    (hEvents : events.Perm [.sent sent, .received received]) :
    feed events ⟨.empty, none⟩
      = ([.ofLeg sent received], ⟨.empty, none⟩) := by
  rcases List.perm_pair.mp hEvents with hSent | hReceived
  · subst hSent
    rfl
  · subst hReceived
    rfl

/- A split of two items whose second part is not empty. -/
theorem split_pair_cases
    {x y : Event}
    {before after : List Event}
    (hSplit : before ++ after = [x, y])
    (hAfter : after ≠ []) :
    (before = [] ∧ after = [x, y])
      ∨ (before = [x] ∧ after = [y]) := by
  rcases List.append_eq_cons_iff.mp hSplit with
    ⟨hBefore, hRest⟩ | ⟨front, hBefore, hRest⟩
  · exact .inl ⟨hBefore, hRest⟩
  · rcases List.singleton_eq_append_iff.mp hRest with
      ⟨hFront, hLast⟩ | ⟨hFront, hLast⟩
    · subst hFront
      exact .inr ⟨hBefore, hLast⟩
    · exact absurd hLast hAfter

/-
  A relay that is seen before the later side is told with the
  sent message.
-/
theorem feed_sides_relay
    {sent : Sent}
    {received : Received}
    {before after : List Event}
    (relayed : Relayed)
    (hSides :
      (before ++ after).Perm [.sent sent, .received received])
    (hAfter : after ≠ []) :
    feed (before ++ .relayed relayed :: after) ⟨.empty, none⟩
      = ([.ofRelay sent relayed, .ofLeg sent received],
        ⟨.empty, none⟩) := by
  -- either side comes first, and the relay before the last
  rcases List.perm_pair.mp hSides with hOrder | hOrder
  · rcases split_pair_cases hOrder hAfter with
      ⟨hBefore, hLast⟩ | ⟨hBefore, hLast⟩
    · subst hBefore hLast
      rfl
    · subst hBefore hLast
      rfl
  · rcases split_pair_cases hOrder hAfter with
      ⟨hBefore, hLast⟩ | ⟨hBefore, hLast⟩
    · subst hBefore hLast
      rfl
    · subst hBefore hLast
      rfl

end Place

------------------------------------------------------------
-- Journeys
------------------------------------------------------------

/- The events of a leg: its two sides, and its relay if any. -/
def Event.ofLeg
    (sent : Sent)
    (received : Received)
    (relayed : Option Relayed) : List Event :=
  [.sent sent, .received received]
    ++ (relayed.map .relayed).toList

/-
  A message on its way over legs that lead to different
  chains, and what is seen of it: each leg is sent as it was
  planned, received on its chain, and may be relayed.
-/
structure Journey where
  subscription : String
  identity : String
  legs : Legs
  sent : Fin legs.length → Sent
  received : Fin legs.length → Received
  relayed : Fin legs.length → Option Relayed
  subscriptionValid : ValidSubscription subscription
  targetsDistinct : (legs.map Leg.target).Nodup
  sentPlan :
    ∀ i, (sent i).legs = legs ∧ (sent i).legIndex.toNat = i
  receivedChain :
    ∀ i, (received i).chain = (legs.get i).target
  relayedRecipient :
    ∀ i r,
      relayed i = some r → r.recipient = (legs.get i).target
  ofMessage :
    ∀ i, ∀ e ∈ Event.ofLeg (sent i) (received i) (relayed i),
      e.subscription = subscription
        ∧ e.identity = some identity
        ∧ e.Storable

namespace Journey

/- The events of a leg of the journey. -/
def legEvents
    (j : Journey)
    (i : Fin j.legs.length) : List Event :=
  Event.ofLeg (j.sent i) (j.received i) (j.relayed i)

/- The events of all legs. -/
def events
    (j : Journey) : List Event :=
  (List.finRange j.legs.length).flatMap j.legEvents

/- What tells a leg of the journey apart. -/
def legId
    (j : Journey)
    (i : Fin j.legs.length) : LegId :=
  ⟨j.subscription, j.identity, (j.legs.get i).target⟩

/- The key under which a leg of the journey waits. -/
def key
    (j : Journey)
    (i : Fin j.legs.length) : String :=
  (j.legId i).key

/-
  Whether the events of the journey are those of its
  subscription among the events that arrive, each once and in
  any order, but each relay before the later side of its leg.
-/
structure Arrives
    (j : Journey)
    (arrived : List Event) : Prop where
  once :
    (arrived.filter (·.subscription = j.subscription)).Perm
      j.events
  early :
    ∀ i r,
      j.relayed i = some r →
        ∃ before after,
          arrived = before ++ .relayed r :: after
            ∧ (.sent (j.sent i) ∈ after
              ∨ .received (j.received i) ∈ after)

/-
  What is told when a leg is complete: after the last leg the
  message was received, and before it a hop was made. It is
  told of the journey and the leg, as the message says it that
  left for the leg, with the point where the leg ended and the
  assets that were trapped there.
-/
def legNotice
    (j : Journey)
    (i : Fin j.legs.length) : Notification :=
  { kind :=
      if i.val + 1 = j.legs.length then .received else .hop
    subscription := j.subscription
    messageHash := (j.sent i).messageHash
    messageId := (j.sent i).messageId
    sender := (j.sent i).sender
    legs := j.legs
    legIndex := .ofNat i
    origin := (j.sent i).origin
    destination := (j.sent i).destination
    waypoint :=
      { chain := (j.received i).chain
        blockHash := (j.received i).blockHash
        blockNumber := (j.received i).blockNumber
        timestamp := (j.received i).timestamp
        outcome := (j.received i).outcome
        error := (j.received i).error
        event := (j.received i).event }
    assetsTrapped := (j.received i).assetsTrapped }

/-
  What is told of the relay of a leg: the same journey and
  leg, and the point where it was seen.
-/
def relayNotices
    (j : Journey)
    (i : Fin j.legs.length) : List Notification :=
  (j.relayed i).toList.map fun r =>
    { j.legNotice i with
      kind := .relayed
      waypoint :=
        { chain := r.chain
          blockHash := r.blockHash
          blockNumber := r.blockNumber
          timestamp := r.timestamp
          outcome := r.outcome
          error := r.error
          event := r.event }
      assetsTrapped := none }

variable {j : Journey}
variable {i : Fin j.legs.length}

------------------------------------------------------------
-- The legs of a journey
------------------------------------------------------------

theorem nextChain?_of_mem
    {e : Event}
    (hMem : e ∈ j.legEvents i) :
    e.nextChain? = some (j.legs.get i).target := by
  have hSides :
      e = .sent (j.sent i)
        ∨ e = .received (j.received i)
        ∨ ∃ r, j.relayed i = some r ∧ e = .relayed r := by
    simpa [legEvents, Event.ofLeg, eq_comm] using hMem
  rcases hSides with hSent | hReceived | ⟨r, hSome, hRelayed⟩
  · subst hSent
    rcases j.sentPlan i with ⟨hLegs, hIndex⟩
    rw [Event.nextChain?, Sent.currentLeg?, hLegs, hIndex,
      List.getElem?_eq_getElem i.isLt]
    rfl
  · subst hReceived
    rw [Event.nextChain?, j.receivedChain i]
  · subst hRelayed
    rw [Event.nextChain?, j.relayedRecipient i r hSome]

theorem key_of_mem
    {e : Event}
    (hMem : e ∈ j.legEvents i) :
    e.key = .ok (j.key i) := by
  rcases j.ofMessage i e hMem with ⟨hSubscription, hIdentity, -⟩
  have hLeg : e.legId? = .ok (j.legId i) :=
    Event.legId?_eq_ok_iff.mpr
      ⟨j.subscriptionValid, hSubscription, hIdentity,
        nextChain?_of_mem hMem⟩
  exact Event.key_eq_ok_iff.mpr ⟨j.legId i, hLeg, rfl⟩

/- Different legs have different keys. -/
theorem key_injective
    {k : Fin j.legs.length}
    (hKey : j.key i = j.key k) :
    i = k := by
  have hCorrelation :=
    (subscription_eq_of_pendingKey_eq j.subscriptionValid
      j.subscriptionValid hKey).2
  have hTarget := (chain_eq_of_correlationKey_eq hCorrelation).2
  have hInjective :=
    List.nodup_iff_injective_get.mp j.targetsDistinct
  have hSame :=
    @hInjective ⟨i, by simp⟩ ⟨k, by simp⟩
      (by simpa [legId] using hTarget)
  exact Fin.ext (Fin.mk.inj hSame)

/- An event of another subscription has the key of no leg. -/
theorem key_ne_of_subscription
    {e : Event}
    (hOther : e.subscription ≠ j.subscription) :
    e.key ≠ .ok (j.key i) := by
  intro hKey
  have hOwn :
      Event.sent (j.sent i) ∈ j.legEvents i :=
    List.mem_cons_self
  exact hOther
    ((Event.subscription_eq_of_key_eq hKey
      (key_of_mem hOwn)).trans (j.ofMessage i _ hOwn).1)

------------------------------------------------------------
-- Taking out the events of a leg
------------------------------------------------------------

/- The events of a leg among those that arrive. -/
def ofLeg
    (j : Journey)
    (i : Fin j.legs.length)
    (arrived : List Event) : List Event :=
  arrived.filter (·.key = .ok (j.key i))

/- An event of a leg is taken. -/
theorem ofLeg_cons_of_key
    {e : Event}
    (hKey : e.key = .ok (j.key i))
    (rest : List Event) :
    j.ofLeg i (e :: rest) = e :: j.ofLeg i rest :=
  List.filter_cons_of_pos (by simpa using hKey)

/- Any other is not. -/
theorem ofLeg_cons_of_key_ne
    {e : Event}
    (hKey : e.key ≠ .ok (j.key i))
    (rest : List Event) :
    j.ofLeg i (e :: rest) = j.ofLeg i rest :=
  List.filter_cons_of_neg (by simpa using hKey)

/- A leg's own events are all taken. -/
theorem ofLeg_legEvents :
    j.ofLeg i (j.legEvents i) = j.legEvents i := by
  apply List.filter_eq_self.mpr
  intro e hMem
  exact decide_eq_true (key_of_mem hMem)

/- Those of another leg are not. -/
theorem ofLeg_legEvents_of_ne
    {k : Fin j.legs.length}
    (hOther : k ≠ i) :
    j.ofLeg i (j.legEvents k) = [] := by
  apply List.filter_eq_nil_iff.mpr
  intro e hMem hTaken
  have hKey := of_decide_eq_true hTaken
  rw [key_of_mem hMem] at hKey
  exact hOther (key_injective (Except.ok.inj hKey))

/- Lists that are empty but for one are that one in a row. -/
theorem flatMap_eq_of_forall_ne
    {α β : Type}
    {xs : List α}
    {x : α}
    {f : α → List β}
    (hNodup : xs.Nodup)
    (hMem : x ∈ xs)
    (hEmpty : ∀ y, y ≠ x → f y = []) :
    xs.flatMap f = f x := by
  induction xs with
  | nil => cases hMem
  | cons y ys ih =>
      rcases List.nodup_cons.mp hNodup with ⟨hFresh, hNodup⟩
      rw [List.flatMap_cons]
      by_cases hSame : y = x
      · subst hSame
        have hRest : ys.flatMap f = [] := by
          apply List.flatMap_eq_nil_iff.mpr
          intro z hZ
          apply hEmpty
          intro hZ'
          exact hFresh (hZ' ▸ hZ)
        rw [hRest, List.append_nil]
      · have hRest :=
          (List.mem_cons.mp hMem).resolve_left (Ne.symm hSame)
        rw [hEmpty y hSame, List.nil_append,
          ih hNodup hRest]

theorem ofLeg_events :
    j.ofLeg i j.events = j.legEvents i := by
  rw [ofLeg, events, List.filter_flatMap]
  exact
    (flatMap_eq_of_forall_ne (List.nodup_finRange _)
      (List.mem_finRange i)
      fun k hOther => ofLeg_legEvents_of_ne hOther).trans
        ofLeg_legEvents

/- The events of a leg are of the journey's subscription. -/
theorem ofLeg_filter
    (arrived : List Event) :
    j.ofLeg i
        (arrived.filter (·.subscription = j.subscription))
      = j.ofLeg i arrived := by
  rw [ofLeg, ofLeg, List.filter_filter]
  apply List.filter_congr
  intro e _
  by_cases hKey : e.key = .ok (j.key i)
  · have hSubscription : e.subscription = j.subscription := by
      by_contra hOther
      exact key_ne_of_subscription hOther hKey
    simp [hKey, hSubscription]
  · simp [hKey]

/- What arrives of a leg are its events, in some order. -/
theorem Arrives.ofLeg_perm
    {arrived : List Event}
    (hArrives : j.Arrives arrived)
    (i : Fin j.legs.length) :
    (j.ofLeg i arrived).Perm (j.legEvents i) := by
  rw [← ofLeg_filter, ← ofLeg_events]
  exact hArrives.once.filter _

/- A message that leaves for a leg tells of its journey. -/
theorem sent_fields
    (j : Journey)
    (i : Fin j.legs.length) :
    (j.sent i).subscription = j.subscription
      ∧ (j.sent i).legs = j.legs
      ∧ (j.sent i).legIndex = .ofNat i := by
  have hOwn : Event.sent (j.sent i) ∈ j.legEvents i :=
    List.mem_cons_self
  rcases j.sentPlan i with ⟨hLegs, hIndex⟩
  refine ⟨(j.ofMessage i _ hOwn).1, hLegs, ?_⟩
  rw [← hIndex, UInt64.ofNat_toNat]

theorem ofLeg_eq_legNotice
    (j : Journey)
    (i : Fin j.legs.length) :
    Notification.ofLeg (j.sent i) (j.received i)
      = j.legNotice i := by
  rcases j.sent_fields i with ⟨hSubscription, hLegs, hIndex⟩
  have hLast :
      j.legs.length ≤ i.val + 1
        ↔ i.val + 1 = j.legs.length := by
    have hBound := i.isLt
    omega
  have hKind :
      (if (j.sent i).legs.length
            ≤ (j.sent i).legIndex.toNat + 1 then
          NotificationKind.received
        else .hop)
        = if i.val + 1 = j.legs.length then .received
          else .hop := by
    rw [hLegs, (j.sentPlan i).2]
    exact if_congr hLast rfl rfl
  rw [Notification.ofLeg, hKind, hSubscription, hLegs, hIndex]
  rfl

theorem ofRelay_eq_relayNotices
    (j : Journey)
    (i : Fin j.legs.length) :
    (j.relayed i).toList.map (.ofRelay (j.sent i))
      = j.relayNotices i := by
  rcases j.sent_fields i with ⟨hSubscription, hLegs, hIndex⟩
  refine List.map_congr_left fun r _ => ?_
  rw [Notification.ofRelay, hSubscription, hLegs, hIndex]
  rfl

/-
  The events that arrive of a leg tell of its relay and of
  its two sides, and leave nothing waiting.
-/
theorem Arrives.feed_ofLeg
    {arrived : List Event}
    (hArrives : j.Arrives arrived)
    (i : Fin j.legs.length) :
    Place.feed (j.ofLeg i arrived) ⟨.empty, none⟩
      = (j.relayNotices i ++ [j.legNotice i],
        ⟨.empty, none⟩) := by
  have hPerm := hArrives.ofLeg_perm i
  cases hRelay : j.relayed i with
  | none =>
      rw [legEvents, hRelay] at hPerm
      rw [Place.feed_sides hPerm, ofLeg_eq_legNotice,
        ← ofRelay_eq_relayNotices, hRelay]
      rfl
  | some r =>
      rcases hArrives.early i r hRelay with
        ⟨before, after, hSplit, hLater⟩
      have hOwn : ∀ e ∈ j.legEvents i, e ∈ after →
          e ∈ j.ofLeg i after := by
        intro e hMem hAfter
        exact List.mem_filter.mpr
          ⟨hAfter, decide_eq_true (key_of_mem hMem)⟩
      have hRelayKey : (Event.relayed r).key = .ok (j.key i) :=
        key_of_mem (by simp [legEvents, Event.ofLeg, hRelay])
      have hTaken :
          j.ofLeg i arrived
            = j.ofLeg i before
              ++ .relayed r :: j.ofLeg i after := by
        rw [hSplit, ← ofLeg_cons_of_key hRelayKey]
        exact List.filter_append ..
      have hSides :
          (j.ofLeg i before ++ j.ofLeg i after).Perm
            [.sent (j.sent i), .received (j.received i)] := by
        rw [hTaken, legEvents, hRelay] at hPerm
        exact
          ((List.perm_middle.symm.trans hPerm).trans
            List.perm_middle).cons_inv
      have hLast : j.ofLeg i after ≠ [] := by
        rcases hLater with hSent | hReceived
        · exact List.ne_nil_of_mem
            (hOwn _ (by simp [legEvents, Event.ofLeg]) hSent)
        · exact List.ne_nil_of_mem
            (hOwn _ (by simp [legEvents, Event.ofLeg])
              hReceived)
      rw [hTaken, Place.feed_sides_relay r hSides hLast,
        ofLeg_eq_legNotice, ← ofRelay_eq_relayNotices, hRelay]
      rfl

------------------------------------------------------------
-- A matcher and the places of the legs
------------------------------------------------------------

/- An event of another subscription comes to no leg. -/
theorem handle_other
    {m : Matcher}
    {e : Event}
    {places : Fin j.legs.length → Place}
    (hOther : e.subscription ≠ j.subscription)
    (hShown : ∀ k, (places k).Shown (j.key k) m.store)
    (now : Readings) :
    ∀ k,
      (places k).Shown (j.key k) (m.handle now e).2.store := by
  intro k
  rcases m.handle_cases now e with
    ⟨reason, hHandle⟩
      | ⟨key, reply, after, hKey, hHandle, hMeeting⟩
  · rw [hHandle]
    exact hShown k
  · rw [hHandle]
    apply (hShown k).congr
    intro n
    apply hMeeting.text?_of_ne
    intro hSame
    exact key_ne_of_subscription hOther (hSame ▸ hKey)

/- An event of a leg comes to its place, and to no other. -/
theorem handle_own
    {m : Matcher}
    {e : Event}
    {places : Fin j.legs.length → Place}
    (hMem : e ∈ j.legEvents i)
    (hRuns : m.stopped = false)
    (hShown : ∀ k, (places k).Shown (j.key k) m.store)
    (now : Readings) :
    (m.handle now e).1 = ((places i).meet e).1
      ∧ ∀ k,
        (Function.update places i ((places i).meet e).2 k).Shown
          (j.key k) (m.handle now e).2.store := by
  have hStorable := (j.ofMessage i e hMem).2.2
  rw [Matcher.handle_of_key now hRuns (key_of_mem hMem)]
  have hMeeting := m.meeting_meet now (j.key i) e
  rcases hMeeting.shown hStorable (hShown i) with
    ⟨hReply, hPlace⟩
  refine ⟨hReply, fun k => ?_⟩
  by_cases hSame : k = i
  · subst hSame
    rw [Function.update_self]
    exact hPlace
  · rw [Function.update_of_ne hSame]
    apply (hShown k).congr
    intro n
    apply hMeeting.text?_of_ne
    intro hKey
    exact hSame (key_injective hKey)

/- The places of the legs after an event of one of them. -/
theorem feed_ofLeg_cons
    {e : Event}
    (hMem : e ∈ j.legEvents i)
    (rest : List Event)
    (places : Fin j.legs.length → Place)
    (k : Fin j.legs.length) :
    Place.feed (j.ofLeg k (e :: rest)) (places k)
      = ((if k = i then ((places i).meet e).1.notifications
            else [])
          ++ (Place.feed (j.ofLeg k rest)
            (Function.update places i
              ((places i).meet e).2 k)).1,
        (Place.feed (j.ofLeg k rest)
          (Function.update places i
            ((places i).meet e).2 k)).2) := by
  by_cases hSame : k = i
  · subst hSame
    rw [ofLeg_cons_of_key (key_of_mem hMem), if_pos rfl,
      Function.update_self]
    rfl
  · have hKey : e.key ≠ .ok (j.key k) := by
      rw [key_of_mem hMem]
      intro hKeys
      exact hSame (key_injective (Except.ok.inj hKeys)).symm
    rw [ofLeg_cons_of_key_ne hKey, if_neg hSame,
      Function.update_of_ne hSame, List.nil_append]

/-
  What is told of the journey's subscription while events
  arrive is what the places of its legs tell, each of the
  events of its leg.
-/
theorem told_feed
    {m : Matcher}
    {arrived : List (Readings × Event)}
    {places : Fin j.legs.length → Place}
    (hAuthored : m.Authored fun _ => True)
    (hRuns : m.stopped = false)
    (hOwn :
      ∀ a ∈ arrived,
        a.2.subscription = j.subscription →
          ∃ k, a.2 ∈ j.legEvents k)
    (hShown : ∀ k, (places k).Shown (j.key k) m.store) :
    (((m.feed arrived).1.flatMap Reply.notifications).filter
        (·.subscription = j.subscription)).Perm
      ((List.finRange j.legs.length).flatMap fun k =>
        (Place.feed (j.ofLeg k (arrived.map Prod.snd))
          (places k)).1)
      ∧ ∀ k,
        (Place.feed (j.ofLeg k (arrived.map Prod.snd))
            (places k)).2.Shown
          (j.key k) (m.feed arrived).2.store := by
  -- the places change with the matcher, as the events arrive
  induction arrived generalizing m places with
  | nil =>
      refine ⟨?_, hShown⟩
      have hNothing :
          ((List.finRange j.legs.length).flatMap fun k =>
            (Place.feed (j.ofLeg k []) (places k)).1) = [] :=
        List.flatMap_eq_nil_iff.mpr fun k _ => rfl
      rw [List.map_nil, hNothing]
      exact List.Perm.refl _
  | cons first rest ih =>
      rcases first with ⟨now, e⟩
      rcases List.forall_mem_cons.mp hOwn with ⟨hFirst, hRest⟩
      have hAfterAuthored :=
        hAuthored.handle (e := e) trivial now
      have hAfterRuns :=
        (Matcher.stopped_handle now e m).trans hRuns
      have hFilter :=
        hAuthored.filter_notices now e j.subscription
      simp only [Matcher.feed, List.flatMap_cons,
        List.filter_append, List.map_cons]
      by_cases hSubscription :
          e.subscription = j.subscription
      · rcases hFirst hSubscription with ⟨i, hMem⟩
        rcases handle_own hMem hRuns hShown now with
          ⟨hReply, hPlaces⟩
        rcases ih hAfterAuthored hAfterRuns hRest hPlaces with
          ⟨hTold, hLast⟩
        simp only [feed_ofLeg_cons hMem]
        refine ⟨?_, hLast⟩
        rw [hFilter, if_pos hSubscription, hReply]
        -- what the first event tells joins the row of its leg
        refine (hTold.append_left _).trans ?_
        refine List.Perm.trans ?_
          (List.flatMap_append_perm _ _ _)
        apply List.Perm.append_right
        rw [flatMap_eq_of_forall_ne (List.nodup_finRange _)
          (List.mem_finRange i)
          (fun k hOther => if_neg hOther), if_pos rfl]
      · simp only [ofLeg_cons_of_key_ne
          (key_ne_of_subscription hSubscription)]
        rw [hFilter, if_neg hSubscription, List.nil_append]
        exact ih hAfterAuthored hAfterRuns hRest
          (handle_other hSubscription hShown now)

end Journey

------------------------------------------------------------
-- Histories
------------------------------------------------------------

namespace Matcher

namespace Reachable

/-
  From every state in which nothing waits for the legs of a
  journey, and in whatever order its events arrive among
  those of other subscriptions, each leg is told once, and so
  is each relay; nothing else is told of the subscription,
  and nothing is left to wait for the legs.
-/
theorem journey_told
    {expiry : Nat}
    {tags : TagSource}
    {m : Matcher}
    (hReachable : Reachable (fun _ => True) expiry tags m)
    (j : Journey)
    (hFree :
      ∀ i n, Pending.text? n (j.key i) m.store = none)
    (arrived : List (Readings × Event))
    (hArrives : j.Arrives (arrived.map Prod.snd)) :
    (((m.feed arrived).1.flatMap Reply.notifications).filter
        (·.subscription = j.subscription)).Perm
      ((List.finRange j.legs.length).map j.legNotice
        ++ (List.finRange j.legs.length).flatMap
          j.relayNotices)
      ∧ ∀ i n,
        Pending.text? n (j.key i) (m.feed arrived).2.store
          = none := by
  have hShown :
      ∀ i, Place.Shown (j.key i) m.store ⟨.empty, none⟩ := by
    intro i n
    rw [Pending.message?_of_text?_eq_none (hFree i n)]
    cases n <;> rfl
  have hOwn :
      ∀ a ∈ arrived,
        a.2.subscription = j.subscription →
          ∃ i, a.2 ∈ j.legEvents i := by
    intro a hMem hSubscription
    have hFound :
        a.2 ∈ (arrived.map Prod.snd).filter
          (·.subscription = j.subscription) :=
      List.mem_filter.mpr
        ⟨List.mem_map_of_mem hMem,
          decide_eq_true hSubscription⟩
    have hEvent := hArrives.once.subset hFound
    rcases List.mem_flatMap.mp hEvent with ⟨i, -, hLeg⟩
    exact ⟨i, hLeg⟩
  rcases Journey.told_feed hReachable.authored
      hReachable.stopped_eq hOwn hShown with
    ⟨hTold, hPlaces⟩
  simp only [hArrives.feed_ofLeg] at hTold hPlaces
  constructor
  · refine hTold.trans ?_
    refine
      (List.flatMap_append_perm _ _ _).symm.trans ?_
    rw [← List.map_eq_flatMap]
    exact List.perm_append_comm
  · intro i n
    apply Pending.text?_eq_none_of_message?
    rw [hPlaces i n]
    cases n <;> rfl

end Reachable

end Matcher

/- A journey over two legs, the first of them relayed. -/
def seenJourney : Journey :=
  { subscription := "journeys"
    identity := "0x01"
    legs := seenLegs
    sent := fun i =>
      if i.val = 0 then seenHopSent else seenLastSent
    received := fun i =>
      if i.val = 0 then seenHopReceived else seenLastReceived
    relayed := fun i =>
      if i.val = 0 then some seenHopRelay else none
    subscriptionValid := by decide
    targetsDistinct := by decide
    sentPlan := Fin.forall_fin_two.mpr ⟨⟨rfl, rfl⟩, ⟨rfl, rfl⟩⟩
    receivedChain := Fin.forall_fin_two.mpr ⟨rfl, rfl⟩
    relayedRecipient := by
      refine Fin.forall_fin_two.mpr ⟨?_, nofun⟩
      rintro r ⟨⟩
      rfl
    ofMessage := by
      have hStorable := Event.storable_seenLegs
      simp only [List.forall_mem_cons] at hStorable
      rcases hStorable with
        ⟨hHopSent, hHopReceived, hHopRelay, hLastSent,
          hLastReceived, -⟩
      refine Fin.forall_fin_two.mpr ⟨?_, ?_⟩
      · change
          ∀ e ∈ [Event.sent seenHopSent,
              .received seenHopReceived,
              .relayed seenHopRelay], _
        simp only [List.forall_mem_cons]
        exact
          ⟨⟨rfl, rfl, hHopSent⟩, ⟨rfl, rfl, hHopReceived⟩,
            ⟨rfl, rfl, hHopRelay⟩, List.forall_mem_nil _⟩
      · change
          ∀ e ∈ [Event.sent seenLastSent,
              .received seenLastReceived], _
        simp only [List.forall_mem_cons]
        exact
          ⟨⟨rfl, rfl, hLastSent⟩, ⟨rfl, rfl, hLastReceived⟩,
            List.forall_mem_nil _⟩ }

/- Its events in reverse, with one of another subscription. -/
def seenInReverse : List (Readings × Event) :=
  [(.still ⟨0⟩, .received seenLastReceived),
    (.still ⟨1⟩, .sent seenLastSent),
    (.still ⟨2⟩, .relayed seenHopRelay),
    (.still ⟨3⟩, .received { seenHopReceived with
      subscription := "others" }),
    (.still ⟨4⟩, .received seenHopReceived),
    (.still ⟨5⟩, .sent seenHopSent)]

/-
  A hop is told for the first leg and the journey for the
  second, and the relay of the first leg; nothing is left to
  wait for them.
-/
theorem Matcher.Reachable.journey_told_seenInReverse :
    ((((begin 0 .counted .empty).feed
            seenInReverse).1.flatMap
          Reply.notifications).filter
        (·.subscription = "journeys")).Perm
      [seenHopNotice, seenLastNotice, seenRelayNotice]
      ∧ ∀ i n,
        Pending.text? n (seenJourney.key i)
            ((begin 0 .counted .empty).feed
              seenInReverse).2.store
          = none := by
  have hArrives :
      seenJourney.Arrives (seenInReverse.map Prod.snd) := by
    constructor
    · exact
        List.reverse_perm
          [Event.sent seenHopSent, .received seenHopReceived,
            .relayed seenHopRelay, .sent seenLastSent,
            .received seenLastReceived]
    · refine Fin.forall_fin_two.mpr ⟨?_, nofun⟩
      rintro r ⟨⟩
      exact
        ⟨[.received seenLastReceived, .sent seenLastSent], _,
          rfl, .inl (by simp [seenJourney])⟩
  exact
    journey_told .start seenJourney
      (fun i n => text?_begin 0 .counted n _) seenInReverse
      hArrives

end JourneyMatch
