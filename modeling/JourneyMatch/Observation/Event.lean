import JourneyMatch.Observation.Message

/-
  This file defines the events by which observations arrive
  as one stream. An event is an observation with a tag that
  names its kind; the tag may stand anywhere in the object,
  so that the other members are read first and decoded once
  the kind is known.

  Key definitions include:
    * `EventKind`
    * `Event`
    * `Event.write`
    * `Envelope`
    * `Envelope.read`
    * `Event.read`
    * `Event.parse`
-/

namespace JourneyMatch

------------------------------------------------------------
-- Events
------------------------------------------------------------

/- The kinds of events. -/
inductive EventKind where
  | sent
  | received
  | relayed
  deriving DecidableEq, Repr

namespace EventKind

/- The names of the kinds. -/
def names : List String :=
  ["xcm.sent", "xcm.received", "xcm.relayed"]

/- The place of a kind among the names. -/
def place : EventKind → Fin names.length
  | .sent => ⟨0, by decide⟩
  | .received => ⟨1, by decide⟩
  | .relayed => ⟨2, by decide⟩

/- The kind at a place. -/
def ofPlace
    (i : Fin names.length) : EventKind :=
  match i.val with
  | 0 => .sent
  | 1 => .received
  | _ => .relayed

/- The name of a kind. -/
def name
    (k : EventKind) : String :=
  names[k.place]

end EventKind

/- An observation of any kind. -/
inductive Event where
  | sent (message : Sent)
  | received (message : Received)
  | relayed (message : Relayed)

namespace Event

/- The kind of an event. -/
def kind : Event → EventKind
  | .sent _ => .sent
  | .received _ => .received
  | .relayed _ => .relayed

/- The subscription of an event. -/
def subscription : Event → String
  | .sent m => m.subscription
  | .received m => m.subscription
  | .relayed m => m.subscription

/- The message hash of an event. -/
def messageHash : Event → String
  | .sent m => m.messageHash
  | .received m => m.messageHash
  | .relayed m => m.messageHash

/- The identity of an event. -/
def identity : Event → Option String
  | .sent m => m.identity
  | .received m => m.identity
  | .relayed m => m.identity

------------------------------------------------------------
-- Printing
------------------------------------------------------------

/- The printed fields of the observation. -/
def writeFields : Event → List (List Char)
  | .sent m => Sent.fields.write (Wire.pack m)
  | .received m => Received.fields.write (Wire.pack m)
  | .relayed m => Relayed.fields.write (Wire.pack m)

/- The key under which the kind stands. -/
def tag : String :=
  "type"

/- The text of an event; its kind comes first. -/
def write
    (e : Event) : List Char :=
  braced
    (keyed tag (Quoted.write e.kind.name) :: e.writeFields)

/- The text of an event as a string. -/
def text
    (e : Event) : String :=
  String.ofList e.write

end Event

------------------------------------------------------------
-- Envelopes
------------------------------------------------------------

/-
  A kind, and an observation that has not been decoded: the
  members of an object, or the items of an array.
-/
structure Envelope where
  kind : EventKind
  content : Json

/- What has been read of an envelope. -/
structure Envelope.Partial where
  kind : Option EventKind
  members : List (String × Json)

/- Reads the name of a kind. -/
def EventKind.read : Reader EventKind := fun cs => do
  let (i, rest) ← readVariantName EventKind.names cs
  .ok (.ofPlace i, rest)

namespace Envelope

/- Reads one member of an envelope. -/
def readMember
    (depth : Nat)
    (key : String)
    (read : Partial) : Reader Partial := fun cs =>
  if key = Event.tag then
    if read.kind.isSome then
      .error (.mismatch (.duplicateField Event.tag))
    else do
      let (_, rest) ← readColon cs
      let (kind, rest) ← EventKind.read rest
      .ok ({ read with kind := some kind }, rest)
  else do
    let (members, rest) ←
      pushMember (Json.read depth) key read.members cs
    .ok ({ read with members }, rest)

/- Reads an envelope whose opening brace has been passed. -/
def readObject
    (depth : Nat) : Reader Envelope := fun cs => do
  let (read, rest) ←
    readMembers (readMember depth) ⟨none, []⟩ cs
  match read.kind with
  | none => .error (.mismatch (.missingField Event.tag))
  | some kind =>
      .ok (⟨kind, .object read.members.reverse⟩, rest)

/-
  Reads an envelope whose opening bracket has been passed:
  the kind is the first item.
-/
def readArray
    (depth : Nat) : Reader Envelope := fun cs => do
  match ← nextItem true cs with
  | none => .error (.mismatch (.missingField Event.tag))
  | some cs =>
      let (kind, rest) ← EventKind.read cs
      let (items, rest) ←
        readItemsWithin
          (Json.read depth) (rest.length + 1) false rest
      .ok (⟨kind, .array items⟩, rest)

/- Reads an envelope. -/
def read
    (depth : Nat) : Reader Envelope := fun cs =>
  match skipBlanks cs, depth with
  | '{' :: _, 0 => .error (.malformed .tooDeep)
  | '{' :: rest, depth + 1 => readObject depth rest
  | '[' :: _, 0 => .error (.malformed .tooDeep)
  | '[' :: rest, depth + 1 => readArray depth rest
  | rest, _ => .error (kindFault rest)

/- Decodes the observation in an envelope. -/
def open?
    (e : Envelope) : Except Mismatch Event :=
  match e.kind with
  | .sent => (Wire.decode Sent e.content).map .sent
  | .received =>
      (Wire.decode Received e.content).map .received
  | .relayed => (Wire.decode Relayed e.content).map .relayed

end Envelope

------------------------------------------------------------
-- Reading
------------------------------------------------------------

namespace Event

/- Reads an event. -/
def read : Reader Event := fun cs => do
  let (envelope, rest) ← Envelope.read greatestDepth cs
  let event ← fromMismatch envelope.open?
  .ok (event, rest)

/- Reads an event from a whole text. -/
def parse
    (s : String) : Except ReadError Event :=
  readWhole? read s

end Event

end JourneyMatch
