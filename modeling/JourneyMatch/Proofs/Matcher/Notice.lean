import JourneyMatch.Matcher.Basic
import JourneyMatch.Proofs.Pending.Record

/-
  This file writes out what is told of a leg whose two sides
  have met, and of a leg whose message was seen on its relay
  chain: the kind of each notification, what it has from the
  sent message, and what from the observation that met it.
  The matcher tells these notifications.

  Key definitions include:
    * `Notification.ofLeg`
    * `Notification.ofRelay`

  Main statements:
    * `Matcher.legKind_eq_received_iff`
    * `Notification.ofSent_legKind`
    * `Notification.ofSent_relayed`
-/

namespace JourneyMatch

------------------------------------------------------------
-- What is told
------------------------------------------------------------

namespace Notification

/-
  The notification of a leg whose two sides have met. Of the
  last leg it tells that the message was received, and of an
  earlier one that a hop was made. The journey is that of the
  sent message, the point at which the leg ended and the
  trapped assets are those of the received one.
-/
def ofLeg
    (sent : Sent)
    (received : Received) : Notification :=
  { kind :=
      if sent.legs.length ≤ sent.legIndex.toNat + 1 then
        .received
      else
        .hop
    subscription := sent.subscription
    messageHash := sent.messageHash
    messageId := sent.messageId
    sender := sent.sender
    legs := sent.legs
    legIndex := sent.legIndex
    origin := sent.origin
    destination := sent.destination
    waypoint :=
      { chain := received.chain
        blockHash := received.blockHash
        blockNumber := received.blockNumber
        timestamp := received.timestamp
        outcome := received.outcome
        error := received.error
        event := received.event }
    assetsTrapped := received.assetsTrapped }

/-
  The notification of a leg whose message was seen on its
  relay chain, before it has arrived and with no assets.
-/
def ofRelay
    (sent : Sent)
    (relayed : Relayed) : Notification :=
  { kind := .relayed
    subscription := sent.subscription
    messageHash := sent.messageHash
    messageId := sent.messageId
    sender := sent.sender
    legs := sent.legs
    legIndex := sent.legIndex
    origin := sent.origin
    destination := sent.destination
    waypoint :=
      { chain := relayed.chain
        blockHash := relayed.blockHash
        blockNumber := relayed.blockNumber
        timestamp := relayed.timestamp
        outcome := relayed.outcome
        error := relayed.error
        event := relayed.event }
    assetsTrapped := none }

end Notification

------------------------------------------------------------
-- What the matcher tells
------------------------------------------------------------

namespace Matcher

variable {m : Sent}

/- The message was received if no leg follows its own. -/
theorem legKind_eq_received_iff :
    legKind m = .received
      ↔ m.legs.length ≤ m.legIndex.toNat + 1 := by
  rw [legKind, Sent.isLastLeg]
  split
  · simp_all
  · simp_all

/- A hop was made if there is another leg. -/
theorem legKind_eq_hop_iff :
    legKind m = .hop
      ↔ m.legIndex.toNat + 1 < m.legs.length := by
  rw [← Nat.not_le, ← legKind_eq_received_iff, legKind]
  split <;> simp

end Matcher

namespace Notification

/- No other kind is told of a leg. -/
theorem kind_ofLeg
    (sent : Sent)
    (received : Received) :
    (ofLeg sent received).kind = .hop
      ∨ (ofLeg sent received).kind = .received := by
  by_cases hLast : sent.legs.length ≤ sent.legIndex.toNat + 1
  · exact .inr (if_pos hLast)
  · exact .inl (if_neg hLast)

/- The matcher tells the notification of a leg. -/
theorem ofSent_legKind
    (sent : Sent)
    (received : Received) :
    ofSent (Matcher.legKind sent) sent received.waypoint
        received.assetsTrapped
      = ofLeg sent received := by
  have hKind :
      Matcher.legKind sent = (ofLeg sent received).kind := by
    by_cases hLast :
        sent.legs.length ≤ sent.legIndex.toNat + 1
    · rw [Matcher.legKind_eq_received_iff.mpr hLast]
      exact (if_pos hLast).symm
    · rw [Matcher.legKind_eq_hop_iff.mpr (Nat.not_le.mp hLast)]
      exact (if_neg hLast).symm
  rw [hKind]
  rfl

/- It tells the notification of a relay. -/
theorem ofSent_relayed
    (sent : Sent)
    (relayed : Relayed) :
    ofSent .relayed sent relayed.waypoint none
      = ofRelay sent relayed :=
  rfl

end Notification

------------------------------------------------------------
-- A message over two legs
------------------------------------------------------------

/- What is told when its first leg is seen on the relay chain. -/
def seenRelayNotice : Notification :=
  { kind := .relayed
    subscription := "journeys"
    messageHash := "0x01"
    messageId := none
    sender := .null
    legs := seenLegs
    legIndex := 0
    origin := seenSent.origin
    destination := ⟨⟨"target"⟩⟩
    waypoint :=
      { chain := ⟨"relay"⟩
        blockHash := "0xfeed"
        blockNumber := 7
        timestamp := none
        outcome := .success
        error := none
        event := .null }
    assetsTrapped := none }

/- What is told when its first leg is complete. -/
def seenHopNotice : Notification :=
  { seenRelayNotice with
    kind := .hop
    waypoint :=
      { chain := ⟨"middle"⟩
        blockHash := "0xface"
        blockNumber := 8
        timestamp := none
        outcome := .success
        error := none
        event := .null } }

/- What is told when its second leg is, and so the journey. -/
def seenLastNotice : Notification :=
  { seenRelayNotice with
    kind := .received
    legIndex := 1
    waypoint :=
      { chain := ⟨"target"⟩
        blockHash := "0xcafe"
        blockNumber := 9
        timestamp := none
        outcome := .success
        error := none
        event := .null }
    assetsTrapped := some (.string "coins") }

end JourneyMatch
