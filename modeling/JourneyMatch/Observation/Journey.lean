import JourneyMatch.Wire.Basic

/-
  This file defines what a journey is made of: chains, the
  points at which a message is seen, the hops that are
  planned for it, and where it is heading.

  Key definitions include:
    * `ChainId`
    * `Outcome`
    * `Waypoint`
    * `LegType`
    * `Leg`
    * `Destination`
-/

namespace JourneyMatch

------------------------------------------------------------
-- Chains
------------------------------------------------------------

/- The name of a consensus system. -/
structure ChainId where
  text : String
  deriving DecidableEq, Repr

instance : Wire ChainId where
  shape := .text
  pack c := c.text
  unpack s := ⟨s⟩
  unpack_pack _ := rfl

/- How a message fared in the block where it was seen. -/
inductive Outcome where
  | success
  | fail
  deriving DecidableEq, Repr

namespace Outcome

/- The names of the outcomes. -/
def names : List String :=
  ["Success", "Fail"]

/- The place of an outcome among the names. -/
def place : Outcome → Fin names.length
  | .success => ⟨0, by decide⟩
  | .fail => ⟨1, by decide⟩

/- The outcome at a place. -/
def ofPlace
    (i : Fin names.length) : Outcome :=
  match i.val with
  | 0 => .success
  | _ => .fail

/- The name of an outcome. -/
def name
    (o : Outcome) : String :=
  names[o.place]

end Outcome

instance : Wire Outcome where
  shape := .oneOf Outcome.names
  pack := Outcome.place
  unpack := Outcome.ofPlace
  unpack_pack o := by cases o <;> rfl

------------------------------------------------------------
-- Waypoints
------------------------------------------------------------

/-
  A point at which a message was seen on a chain. The chain's
  own event is kept as it came.
-/
structure Waypoint where
  chain : ChainId
  blockHash : String
  blockNumber : UInt64
  timestamp : Option UInt64
  outcome : Outcome
  error : Option String
  event : Json

/- The fields of a waypoint. -/
def Waypoint.fields : Fields :=
  .cons "chainId" .text .required <|
  .cons "blockHash" .text .required <|
  .cons "blockNumber" .word64 .required <|
  .cons "timestamp" (.optional .word64) .blank <|
  .cons "outcome" (.oneOf Outcome.names) .required <|
  .cons "error" (.optional .text) .blank <|
  .cons "event" .free .blank .nil

instance : Wire Waypoint where
  shape := .record Waypoint.fields
  pack w :=
    (w.chain.text, w.blockHash, w.blockNumber, w.timestamp,
      w.outcome.place, w.error, w.event, ())
  unpack
    | (chain, blockHash, blockNumber, timestamp, outcome,
        error, event, ()) =>
      { chain := ⟨chain⟩
        blockHash
        blockNumber
        timestamp
        outcome := .ofPlace outcome
        error
        event }
  unpack_pack w := by
    cases w with
    | mk _ _ _ _ outcome _ _ => cases outcome <;> rfl

------------------------------------------------------------
-- Legs
------------------------------------------------------------

/-
  How a hop is carried: between two parachains, between a
  relay chain and a parachain, or through the relay chain.
-/
inductive LegType where
  | hrmp
  | vmp
  | relay
  deriving DecidableEq, Repr

namespace LegType

/- The names of the leg types. -/
def names : List String :=
  ["hrmp", "vmp", "relay"]

/- The place of a leg type among the names. -/
def place : LegType → Fin names.length
  | .hrmp => ⟨0, by decide⟩
  | .vmp => ⟨1, by decide⟩
  | .relay => ⟨2, by decide⟩

/- The leg type at a place. -/
def ofPlace
    (i : Fin names.length) : LegType :=
  match i.val with
  | 0 => .hrmp
  | 1 => .vmp
  | _ => .relay

end LegType

instance : Wire LegType where
  shape := .oneOf LegType.names
  pack := LegType.place
  unpack := LegType.ofPlace
  unpack_pack t := by cases t <;> rfl

/- One hop of a planned journey. -/
structure Leg where
  source : ChainId
  target : ChainId
  legType : LegType
  relay : Option ChainId
  deriving DecidableEq, Repr

/- The fields of a leg. -/
def Leg.fields : Fields :=
  .cons "from" .text .required <|
  .cons "to" .text .required <|
  .cons "type" (.oneOf LegType.names) .required <|
  .cons "relay" (.optional .text) .blank .nil

/- A leg as the values of its fields. -/
def Leg.pack
    (l : Leg) : Leg.fields.Carrier :=
  (l.source.text, l.target.text, l.legType.place,
    l.relay.map ChainId.text, ())

/- The leg with the given values of its fields. -/
def Leg.unpack : Leg.fields.Carrier → Leg
  | (source, target, legType, relay, ()) =>
      { source := ⟨source⟩
        target := ⟨target⟩
        legType := .ofPlace legType
        relay := relay.map ChainId.mk }

/- Packing a leg loses nothing. -/
theorem Leg.unpack_pack
    (l : Leg) :
    Leg.unpack l.pack = l := by
  obtain ⟨source, target, legType, relay⟩ := l
  cases legType <;> cases relay <;> rfl

instance : Wire Leg where
  shape := .record Leg.fields
  pack := Leg.pack
  unpack := Leg.unpack
  unpack_pack := Leg.unpack_pack

/- The legs of a journey, in their order. -/
abbrev Legs :=
  List Leg

/- Packing legs loses nothing. -/
theorem Leg.map_unpack_pack
    (legs : Legs) :
    (legs.map Leg.pack).map Leg.unpack = legs := by
  induction legs with
  | nil => rfl
  | cons l rest ih => simp_all [Leg.unpack_pack]

------------------------------------------------------------
-- Destinations
------------------------------------------------------------

/- The chain to which a journey is heading. -/
structure Destination where
  chain : ChainId
  deriving DecidableEq, Repr

/- The fields of a destination. -/
def Destination.fields : Fields :=
  .cons "chainId" .text .required .nil

instance : Wire Destination where
  shape := .record Destination.fields
  pack d := (d.chain.text, ())
  unpack
    | (chain, ()) => ⟨⟨chain⟩⟩
  unpack_pack _ := rfl

end JourneyMatch
