import JourneyMatch.Observation.Journey

/-
  This file defines the three observations of a message: that
  it left a chain, that it was executed on a chain, and that
  it passed through a relay chain. They arrive independently
  and in any order.

  Key definitions include:
    * `messageIdentity`
    * `Sent`
    * `Received`
    * `Relayed`
-/

namespace JourneyMatch

/-
  The identity by which observations of one message find each
  other: its topic if it has one, and its hash otherwise. An
  empty text counts as none.
-/
def messageIdentity
    (messageId : Option String)
    (messageHash : String) : Option String :=
  match messageId.filter (· ≠ "") with
  | some topic => some topic
  | none => if messageHash ≠ "" then some messageHash else none

------------------------------------------------------------
-- Sent
------------------------------------------------------------

/-
  A message left a chain, heading for the target of the leg
  of the given index. The origin is where its journey began,
  and the waypoint is where this leg began.
-/
structure Sent where
  subscription : String
  messageHash : String
  messageId : Option String
  legs : Legs
  legIndex : UInt64
  sender : Json
  origin : Waypoint
  waypoint : Waypoint
  destination : Destination

namespace Sent

/- The fields of a sent message. -/
def fields : Fields :=
  .cons "subscriptionId" .text .required <|
  .cons "messageHash" .text .required <|
  .cons "messageId" (.optional .text) .blank <|
  .cons "legs" (.list (.record Leg.fields)) .required <|
  .cons "legIndex" .word64 .required <|
  .cons "sender" .free .blank <|
  .cons "origin" (.record Waypoint.fields) .required <|
  .cons "waypoint" (.record Waypoint.fields) .required <|
  .cons "destination" (.record Destination.fields) .required
    .nil

instance : Wire Sent where
  shape := .record fields
  pack m :=
    (m.subscription, m.messageHash, m.messageId,
      m.legs.map Leg.pack, m.legIndex, m.sender,
      Wire.pack m.origin, Wire.pack m.waypoint,
      Wire.pack m.destination, ())
  unpack
    | (subscription, messageHash, messageId, legs, legIndex,
        sender, origin, waypoint, destination, ()) =>
      { subscription
        messageHash
        messageId
        legs := legs.map Leg.unpack
        legIndex
        sender
        origin := Wire.unpack origin
        waypoint := Wire.unpack waypoint
        destination := Wire.unpack destination }
  unpack_pack m := by
    cases m
    simp only [Leg.map_unpack_pack, Wire.unpack_pack]

/- The identity of a sent message. -/
def identity
    (m : Sent) : Option String :=
  messageIdentity m.messageId m.messageHash

/- The leg that a sent message begins, if there is one. -/
def currentLeg?
    (m : Sent) : Option Leg :=
  m.legs[m.legIndex.toNat]?

/- Whether no leg follows the one that begins. -/
def isLastLeg
    (m : Sent) : Bool :=
  m.legs.length ≤ m.legIndex.toNat + 1

end Sent

------------------------------------------------------------
-- Received
------------------------------------------------------------

/- A message was executed on a chain. -/
structure Received where
  subscription : String
  messageHash : String
  messageId : Option String
  chain : ChainId
  blockHash : String
  blockNumber : UInt64
  timestamp : Option UInt64
  outcome : Outcome
  error : Option String
  assetsTrapped : Option Json
  event : Json

namespace Received

/- The fields of a received message. -/
def fields : Fields :=
  .cons "subscriptionId" .text .required <|
  .cons "messageHash" .text .required <|
  .cons "messageId" (.optional .text) .blank <|
  .cons "chainId" .text .required <|
  .cons "blockHash" .text .required <|
  .cons "blockNumber" .word64 .required <|
  .cons "timestamp" (.optional .word64) .blank <|
  .cons "outcome" (.oneOf Outcome.names) .required <|
  .cons "error" (.optional .text) .blank <|
  .cons "assetsTrapped" (.optional .free) .blank <|
  .cons "event" .free .blank .nil

instance : Wire Received where
  shape := .record fields
  pack m :=
    (m.subscription, m.messageHash, m.messageId,
      m.chain.text, m.blockHash, m.blockNumber, m.timestamp,
      m.outcome.place, m.error, m.assetsTrapped, m.event, ())
  unpack
    | (subscription, messageHash, messageId, chain, blockHash,
        blockNumber, timestamp, outcome, error, assetsTrapped,
        event, ()) =>
      { subscription
        messageHash
        messageId
        chain := ⟨chain⟩
        blockHash
        blockNumber
        timestamp
        outcome := .ofPlace outcome
        error
        assetsTrapped
        event }
  unpack_pack m := by
    obtain ⟨_, _, _, _, _, _, _, outcome, _, _, _⟩ := m
    cases outcome <;> rfl

/- The identity of a received message. -/
def identity
    (m : Received) : Option String :=
  messageIdentity m.messageId m.messageHash

/- The point at which a received message was seen. -/
def waypoint
    (m : Received) : Waypoint :=
  { chain := m.chain
    blockHash := m.blockHash
    blockNumber := m.blockNumber
    timestamp := m.timestamp
    outcome := m.outcome
    error := m.error
    event := m.event }

end Received

------------------------------------------------------------
-- Relayed
------------------------------------------------------------

/-
  A message was seen on the relay chain of a relayed leg,
  heading for the recipient.
-/
structure Relayed where
  subscription : String
  messageHash : String
  messageId : Option String
  chain : ChainId
  recipient : ChainId
  legIndex : UInt64
  blockHash : String
  blockNumber : UInt64
  timestamp : Option UInt64
  outcome : Outcome
  error : Option String
  event : Json

namespace Relayed

/- The fields of a relayed message. -/
def fields : Fields :=
  .cons "subscriptionId" .text .required <|
  .cons "messageHash" .text .required <|
  .cons "messageId" (.optional .text) .blank <|
  .cons "chainId" .text .required <|
  .cons "recipient" .text .required <|
  .cons "legIndex" .word64 .required <|
  .cons "blockHash" .text .required <|
  .cons "blockNumber" .word64 .required <|
  .cons "timestamp" (.optional .word64) .blank <|
  .cons "outcome" (.oneOf Outcome.names) .required <|
  .cons "error" (.optional .text) .blank <|
  .cons "event" .free .blank .nil

instance : Wire Relayed where
  shape := .record fields
  pack m :=
    (m.subscription, m.messageHash, m.messageId,
      m.chain.text, m.recipient.text, m.legIndex, m.blockHash,
      m.blockNumber, m.timestamp, m.outcome.place, m.error,
      m.event, ())
  unpack
    | (subscription, messageHash, messageId, chain, recipient,
        legIndex, blockHash, blockNumber, timestamp, outcome,
        error, event, ()) =>
      { subscription
        messageHash
        messageId
        chain := ⟨chain⟩
        recipient := ⟨recipient⟩
        legIndex
        blockHash
        blockNumber
        timestamp
        outcome := .ofPlace outcome
        error
        event }
  unpack_pack m := by
    obtain ⟨_, _, _, _, _, _, _, _, _, outcome, _, _⟩ := m
    cases outcome <;> rfl

/- The identity of a relayed message. -/
def identity
    (m : Relayed) : Option String :=
  messageIdentity m.messageId m.messageHash

/- The point at which a relayed message was seen. -/
def waypoint
    (m : Relayed) : Waypoint :=
  { chain := m.chain
    blockHash := m.blockHash
    blockNumber := m.blockNumber
    timestamp := m.timestamp
    outcome := m.outcome
    error := m.error
    event := m.event }

end Relayed

end JourneyMatch
