import JourneyMatch.Observation.Event

/-
  This file defines the notifications that tell of progress:
  the sent side of a leg together with the observation that
  met it.

  Key definitions include:
    * `NotificationKind`
    * `Notification`
    * `Notification.ofSent`
-/

namespace JourneyMatch

/-
  What a notification tells: that a leg before the last one
  was completed, that the journey was, or that a message was
  seen on its relay chain.
-/
inductive NotificationKind where
  | hop
  | received
  | relayed
  deriving DecidableEq, Repr

namespace NotificationKind

/- The names of the kinds. -/
def names : List String :=
  ["xcm.hop", "xcm.received", "xcm.relayed"]

/- The place of a kind among the names. -/
def place : NotificationKind → Fin names.length
  | .hop => ⟨0, by decide⟩
  | .received => ⟨1, by decide⟩
  | .relayed => ⟨2, by decide⟩

/- The kind at a place. -/
def ofPlace
    (i : Fin names.length) : NotificationKind :=
  match i.val with
  | 0 => .hop
  | 1 => .received
  | _ => .relayed

/- The name of a kind. -/
def name
    (k : NotificationKind) : String :=
  names[k.place]

end NotificationKind

instance : Wire NotificationKind where
  shape := .oneOf NotificationKind.names
  pack := NotificationKind.place
  unpack := NotificationKind.ofPlace
  unpack_pack k := by cases k <;> rfl

/- A sent message and the observation that met it. -/
structure Notification where
  kind : NotificationKind
  subscription : String
  messageHash : String
  messageId : Option String
  sender : Json
  legs : Legs
  legIndex : UInt64
  origin : Waypoint
  destination : Destination
  waypoint : Waypoint
  assetsTrapped : Option Json

namespace Notification

/- The fields of a notification. -/
def fields : Fields :=
  .cons "type" (.oneOf NotificationKind.names) .required <|
  .cons "subscriptionId" .text .required <|
  .cons "messageHash" .text .required <|
  .cons "messageId" (.optional .text) .blank <|
  .cons "sender" .free .blank <|
  .cons "legs" (.list (.record Leg.fields)) .required <|
  .cons "legIndex" .word64 .required <|
  .cons "origin" (.record Waypoint.fields) .required <|
  .cons "destination" (.record Destination.fields) .required <|
  .cons "waypoint" (.record Waypoint.fields) .required <|
  .cons "assetsTrapped" (.optional .free) .blank .nil

instance : Wire Notification where
  shape := .record fields
  pack n :=
    (n.kind.place, n.subscription, n.messageHash, n.messageId,
      n.sender, n.legs.map Leg.pack, n.legIndex,
      Wire.pack n.origin, Wire.pack n.destination,
      Wire.pack n.waypoint, n.assetsTrapped, ())
  unpack
    | (kind, subscription, messageHash, messageId, sender,
        legs, legIndex, origin, destination, waypoint,
        assetsTrapped, ()) =>
      { kind := .ofPlace kind
        subscription
        messageHash
        messageId
        sender
        legs := legs.map Leg.unpack
        legIndex
        origin := Wire.unpack origin
        destination := Wire.unpack destination
        waypoint := Wire.unpack waypoint
        assetsTrapped }
  unpack_pack n := by
    obtain ⟨kind, _, _, _, _, _, _, _, _, _, _⟩ := n
    cases kind <;>
      simp only [Leg.map_unpack_pack, Wire.unpack_pack,
        NotificationKind.place, NotificationKind.ofPlace]

/- The notification of a sent message met by an observation. -/
def ofSent
    (kind : NotificationKind)
    (sent : Sent)
    (waypoint : Waypoint)
    (assetsTrapped : Option Json) : Notification :=
  { kind
    subscription := sent.subscription
    messageHash := sent.messageHash
    messageId := sent.messageId
    sender := sent.sender
    legs := sent.legs
    legIndex := sent.legIndex
    origin := sent.origin
    destination := sent.destination
    waypoint
    assetsTrapped }

end Notification

end JourneyMatch
