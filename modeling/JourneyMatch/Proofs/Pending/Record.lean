import JourneyMatch.Observation.Event
import JourneyMatch.Proofs.Store.Frame

/-
  This file defines what is stored for an event, and how it
  is read back: the record of an event is written to the
  namespace of its kind, and a record of that namespace is
  read as one of an event.

  Key definitions include:
    * `Event.nameSpace`
    * `Event.recordText`
    * `Event.Storable`
    * `Namespace.decode`
    * `Pending.record?`
    * `Pending.message?`
-/

namespace JourneyMatch

------------------------------------------------------------
-- Records of events
------------------------------------------------------------

/- A record with its message changed. -/
def PendingRecord.map
    {α β : Type}
    (f : α → β)
    (r : PendingRecord α) : PendingRecord β :=
  ⟨f r.message, r.expiryTask, r.storedAt⟩

@[simp] theorem PendingRecord.expiryTask_map
    {α β : Type}
    (f : α → β)
    (r : PendingRecord α) :
    (r.map f).expiryTask = r.expiryTask :=
  rfl

@[simp] theorem PendingRecord.message_map
    {α β : Type}
    (f : α → β)
    (r : PendingRecord α) :
    (r.map f).message = f r.message :=
  rfl

namespace Event

/- The namespace in which an event waits. -/
def nameSpace : Event → Namespace
  | .sent _ => .awaitingDestination
  | .received _ => .awaitingOrigin
  | .relayed _ => .relayed

/- The namespace in which the other side of an event waits. -/
def counterpart : Event → Namespace
  | .sent _ => .awaitingOrigin
  | .received _ => .awaitingDestination
  | .relayed _ => .awaitingDestination

/- What is stored for an event. -/
def recordText
    (task : String)
    (storedAt : Int64) : Event → String
  | .sent m => Wire.text (PendingRecord.mk m task storedAt)
  | .received m => Wire.text (PendingRecord.mk m task storedAt)
  | .relayed m => Wire.text (PendingRecord.mk m task storedAt)

end Event

/- The text of a record is that of an object. -/
theorem Event.exists_recordText
    (task : String)
    (storedAt : Int64)
    (e : Event) :
    ∃ rest,
      (e.recordText task storedAt).toList = '{' :: rest := by
  cases e with
  | sent m =>
      simp only [recordText, Wire.text, String.toList_ofList]
      exact ⟨_, rfl⟩
  | received m =>
      simp only [recordText, Wire.text, String.toList_ofList]
      exact ⟨_, rfl⟩
  | relayed m =>
      simp only [recordText, Wire.text, String.toList_ofList]
      exact ⟨_, rfl⟩

/- Reads a record as one of the events of a namespace. -/
def Namespace.decode
    (text : String) :
    Namespace → Except StoreError (PendingRecord Event)
  | .awaitingDestination =>
      (decodeStored (PendingRecord Sent) text).map
        (·.map .sent)
  | .awaitingOrigin =>
      (decodeStored (PendingRecord Received) text).map
        (·.map .received)
  | .relayed =>
      (decodeStored (PendingRecord Relayed) text).map
        (·.map .relayed)

/-
  Whether the record of an event decodes back to the same
  event. The task that removes it and the time of storing
  make no difference.
-/
def Event.Storable
    (e : Event) : Prop :=
  ∃ task storedAt r,
    e.nameSpace.decode (e.recordText task storedAt) = .ok r
      ∧ r.message = e

------------------------------------------------------------
-- Records in the store
------------------------------------------------------------

namespace Pending

/- The record under a key of a namespace. -/
def record?
    (n : Namespace)
    (key : String)
    (s : Store) :
    Except StoreError (Option (PendingRecord Event)) :=
  match text? n key s with
  | none => .ok none
  | some text => (n.decode text).map some

/- The event that waits under a key of a namespace. -/
def message?
    (n : Namespace)
    (key : String)
    (s : Store) : Except StoreError (Option Event) :=
  (record? n key s).map (Option.map PendingRecord.message)

/- A key without a text has no record. -/
theorem record?_of_text?_eq_none
    {n : Namespace}
    {key : String}
    {s : Store}
    (hText : text? n key s = none) :
    record? n key s = .ok none := by
  simp [record?, hText]

/- A key has no record only if it has no text. -/
theorem text?_eq_none_of_record?
    {n : Namespace}
    {key : String}
    {s : Store}
    (hRecord : record? n key s = .ok none) :
    text? n key s = none := by
  unfold record? at hRecord
  cases hText : text? n key s with
  | none => rfl
  | some text =>
      cases hDecode : n.decode text with
      | error cause =>
          simp [hText, hDecode, Except.map] at hRecord
      | ok r => simp [hText, hDecode, Except.map] at hRecord

/- A record that is read is the one of the text. -/
theorem record?_eq_some_iff
    {n : Namespace}
    {key : String}
    {s : Store}
    {r : PendingRecord Event} :
    record? n key s = .ok (some r) ↔
      ∃ text,
        text? n key s = some text ∧ n.decode text = .ok r := by
  unfold record?
  cases hText : text? n key s with
  | none => simp
  | some text =>
      cases hDecode : n.decode text with
      | error cause => simp [hDecode, Except.map]
      | ok r => simp [hDecode, Except.map]

/- Records are seen through the texts alone. -/
theorem record?_congr
    {n : Namespace}
    {key : String}
    {s t : Store}
    (hText : text? n key s = text? n key t) :
    record? n key s = record? n key t := by
  simp only [record?, hText]

theorem message?_congr
    {n : Namespace}
    {key : String}
    {s t : Store}
    (hText : text? n key s = text? n key t) :
    message? n key s = message? n key t := by
  simp only [message?, record?_congr hText]

/-
  Taking an entry removes it if it decodes; the level is put
  back as it is otherwise.
-/
theorem onLevel_take
    (α : Type)
    [Wire α]
    (n : Namespace)
    (key : String)
    (s : Store) :
    s.onLevel n.name (fun l => l.take α key)
      = match (level n s).get α key with
        | .ok (some x) => (.ok (some x), remove n key s)
        | .ok none =>
            (.ok none, s.setLevel n.name (level n s))
        | .error cause =>
            (.error cause, s.setLevel n.name (level n s)) := by
  have hLevel : s.level n.name = level n s := rfl
  simp only [Store.onLevel, Level.take, hLevel]
  rcases (level n s).get α key with cause | _ | x <;> rfl

/- The sent messages that wait, as they are read. -/
theorem record?_awaitingDestination
    (key : String)
    (s : Store) :
    record? .awaitingDestination key s
      = ((level .awaitingDestination s).get
          (PendingRecord Sent) key).map
        (Option.map (·.map .sent)) := by
  simp only [record?, text?, Level.get]
  cases (level .awaitingDestination s).find? key with
  | none => rfl
  | some text =>
      simp only [decodeStored?, Namespace.decode]
      cases decodeStored (PendingRecord Sent) text <;> rfl

/- The received messages that wait, as they are read. -/
theorem record?_awaitingOrigin
    (key : String)
    (s : Store) :
    record? .awaitingOrigin key s
      = ((level .awaitingOrigin s).get
          (PendingRecord Received) key).map
        (Option.map (·.map .received)) := by
  simp only [record?, text?, Level.get]
  cases (level .awaitingOrigin s).find? key with
  | none => rfl
  | some text =>
      simp only [decodeStored?, Namespace.decode]
      cases decodeStored (PendingRecord Received) text <;> rfl

/- The relayed messages that wait, as they are read. -/
theorem record?_relayed
    (key : String)
    (s : Store) :
    record? .relayed key s
      = ((level .relayed s).get
          (PendingRecord Relayed) key).map
        (Option.map (·.map .relayed)) := by
  simp only [record?, text?, Level.get]
  cases (level .relayed s).find? key with
  | none => rfl
  | some text =>
      simp only [decodeStored?, Namespace.decode]
      cases decodeStored (PendingRecord Relayed) text <;> rfl

end Pending

------------------------------------------------------------
-- A message and where it was seen
------------------------------------------------------------

/- A message that left for the target of its only leg. -/
def seenSent : Sent :=
  { subscription := "journeys"
    messageHash := "0x01"
    messageId := none
    legs := [⟨⟨"source"⟩, ⟨"target"⟩, .hrmp, some ⟨"relay"⟩⟩]
    legIndex := 0
    sender := .null
    origin :=
      { chain := ⟨"source"⟩
        blockHash := "0xbeef"
        blockNumber := 5
        timestamp := none
        outcome := .success
        error := none
        event := .null }
    waypoint :=
      { chain := ⟨"source"⟩
        blockHash := "0xbeef"
        blockNumber := 5
        timestamp := none
        outcome := .success
        error := none
        event := .null }
    destination := ⟨⟨"target"⟩⟩ }

/- The message where it was heading to. -/
def seenReceived : Received :=
  { subscription := "journeys"
    messageHash := "0x01"
    messageId := none
    chain := ⟨"target"⟩
    blockHash := "0xcafe"
    blockNumber := 9
    timestamp := none
    outcome := .success
    error := none
    assetsTrapped := none
    event := .null }

/- The message on its way there. -/
def seenRelay : Relayed :=
  { subscription := "journeys"
    messageHash := "0x01"
    messageId := none
    chain := ⟨"relay"⟩
    recipient := ⟨"target"⟩
    legIndex := 0
    blockHash := "0xfeed"
    blockNumber := 7
    timestamp := none
    outcome := .success
    error := none
    event := .null }

/- A way over two legs, the first of them relayed. -/
def seenLegs : Legs :=
  [⟨⟨"source"⟩, ⟨"middle"⟩, .hrmp, some ⟨"relay"⟩⟩,
    ⟨⟨"middle"⟩, ⟨"target"⟩, .hrmp, none⟩]

/- A message that left for the target of the first of them. -/
def seenHopSent : Sent :=
  { seenSent with legs := seenLegs }

/- The message on its way to the target of the first leg. -/
def seenHopRelay : Relayed :=
  { seenRelay with recipient := ⟨"middle"⟩ }

/- The message where the first leg ended. -/
def seenHopReceived : Received :=
  { seenReceived with
    chain := ⟨"middle"⟩
    blockHash := "0xface"
    blockNumber := 8 }

/- The message that left for the target of the second leg. -/
def seenLastSent : Sent :=
  { seenSent with
    legs := seenLegs
    legIndex := 1
    waypoint := seenHopReceived.waypoint }

/- The message where the second leg ended. -/
def seenLastReceived : Received :=
  { seenReceived with assetsTrapped := some (.string "coins") }

end JourneyMatch
