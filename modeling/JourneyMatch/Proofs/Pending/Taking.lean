import JourneyMatch.Proofs.Matcher.Counterpart
import JourneyMatch.Proofs.Matcher.Leg
import JourneyMatch.Proofs.Matcher.Failure
import JourneyMatch.Proofs.Matcher.Run
import JourneyMatch.Proofs.Pending.Accepted

/-
  This file says what is taken out of a namespace after the
  record of an event was put there. An event that was read
  from a text is taken as it was, if the record is not nested
  deeper than any text may be; the parser admits events that
  are one level too deep for that.

  Key definitions include:
    * `Pending.put`
    * `Pending.take`
    * `Event.ReadAs`

  Main statements:
    * `Pending.take_eq`
    * `Pending.take_put`
-/

namespace JourneyMatch

------------------------------------------------------------
-- Putting and taking records
------------------------------------------------------------

namespace Pending

/- Records of messages, as records of events. -/
def asEvents
    {α : Type}
    (wrap : α → Event)
    (result :
      Except StoreError (Option (PendingRecord α)) × Store) :
    Except StoreError (Option (PendingRecord Event)) × Store :=
  (result.1.map (Option.map (·.map wrap)), result.2)

/-
  Puts the record of an event under a key, and gives the one
  that was there before.
-/
def put
    (key task : String)
    (storedAt : Int64)
    (s : Store) :
    Event →
    Except StoreError (Option (PendingRecord Event)) × Store
  | .sent m =>
      asEvents .sent
        (s.onLevel Namespace.awaitingDestination.name
          fun l => l.put key (PendingRecord.mk m task storedAt))
  | .received m =>
      asEvents .received
        (s.onLevel Namespace.awaitingOrigin.name
          fun l => l.put key (PendingRecord.mk m task storedAt))
  | .relayed m =>
      asEvents .relayed
        (s.onLevel Namespace.relayed.name
          fun l => l.put key (PendingRecord.mk m task storedAt))

/- Takes the record under a key out of a namespace. -/
def take
    (key : String)
    (s : Store) :
    Namespace →
    Except StoreError (Option (PendingRecord Event)) × Store
  | .awaitingDestination =>
      asEvents .sent
        (s.onLevel Namespace.awaitingDestination.name
          fun l => l.take (PendingRecord Sent) key)
  | .awaitingOrigin =>
      asEvents .received
        (s.onLevel Namespace.awaitingOrigin.name
          fun l => l.take (PendingRecord Received) key)
  | .relayed =>
      asEvents .relayed
        (s.onLevel Namespace.relayed.name
          fun l => l.take (PendingRecord Relayed) key)

/- A record that is put stands where its event waits. -/
theorem text?_put
    (n : Namespace)
    (key other task : String)
    (storedAt : Int64)
    (s : Store)
    (e : Event) :
    text? n other (put key task storedAt s e).2
      = if n = e.nameSpace ∧ other = key then
          some (e.recordText task storedAt)
        else text? n other s := by
  have hStore :
      (put key task storedAt s e).2
        = write e.nameSpace key (e.recordText task storedAt)
          s := by
    cases e <;> rfl
  rw [hStore, text?_write]

/- A record that is read is taken, and no other. -/
theorem take_eq
    (n : Namespace)
    (key : String)
    (s : Store) :
    take key s n
      = (record? n key s,
        match record? n key s with
        | .ok (some _) => remove n key s
        | _ => s.setLevel n.name (level n s)) := by
  cases n with
  | awaitingDestination =>
      rw [take, asEvents, onLevel_take,
        record?_awaitingDestination]
      rcases (level .awaitingDestination s).get
          (PendingRecord Sent) key with cause | _ | r <;> rfl
  | awaitingOrigin =>
      rw [take, asEvents, onLevel_take, record?_awaitingOrigin]
      rcases (level .awaitingOrigin s).get
          (PendingRecord Received) key with cause | _ | r <;> rfl
  | relayed =>
      rw [take, asEvents, onLevel_take, record?_relayed]
      rcases (level .relayed s).get
          (PendingRecord Relayed) key with cause | _ | r <;> rfl

/- Putting a level in its own place changes nothing. -/
theorem agree_setLevel_level
    (n : Namespace)
    (s : Store) :
    s.Agree (s.setLevel n.name (level n s)) where
  entries m key := by
    unfold text?
    rw [level_setLevel_name]
    split
    · rename_i hSame
      rw [hSame]
    · rfl
  tasks task := by
    unfold TaskQueue.text?
    rw [TaskQueue.of_setLevel_name]

/- What is read of a record that was put. -/
theorem record?_put
    (key task : String)
    (storedAt : Int64)
    (s : Store)
    (e : Event) :
    record? e.nameSpace key (put key task storedAt s e).2
      = e.reread.map fun x => some ⟨x, task, storedAt⟩ := by
  rw [record?, text?_put, if_pos ⟨rfl, rfl⟩]
  simp only [Event.decode_recordText]
  cases e.reread <;> rfl

end Pending

------------------------------------------------------------
-- Texts that are read as events
------------------------------------------------------------

instance :
    DecidablePred Number.IsInteger
  | .integer value => isTrue ⟨value, rfl⟩
  | .double _ => isFalse nofun

namespace Event

instance :
    DecidablePred DoubleFree := fun e => by
  unfold DoubleFree
  infer_instance

/- Whether characters are read as an event with a property. -/
def ReadAs
    (P : Event → Prop)
    (cs : List Char) : Prop :=
  match read cs with
  | .ok (e, []) => P e
  | _ => False

instance
    {P : Event → Prop}
    [DecidablePred P] :
    DecidablePred (ReadAs P) := fun cs => by
  unfold ReadAs
  split <;> infer_instance

theorem ReadAs.exists_parse
    {P : Event → Prop}
    {cs : List Char}
    (hRead : ReadAs P cs) :
    ∃ e, parse (String.ofList cs) = .ok e ∧ P e := by
  unfold ReadAs at hRead
  split at hRead
  · rename_i e hEvent
    refine ⟨e, ?_, hRead⟩
    simp only [parse, readWhole?, String.toList_ofList, hEvent]
    rfl
  · exact hRead.elim

theorem readAs_seenReceived :
    ReadAs
      (fun e =>
        e.DoubleFree
          ∧ e.json.depth = 1
          ∧ e.nameSpace = .awaitingOrigin)
      (write (.received seenReceived)) := by
  decide +kernel

end Event

------------------------------------------------------------
-- What is taken again
------------------------------------------------------------

namespace Pending

/-
  An event was read from a text and has no doubles. If it is
  not nested deeper than a record may hold, its record is
  seen and taken as it was put; otherwise it is one level too
  deep, and neither seen nor taken, and stays where it is.
-/
theorem take_put
    {text : String}
    {e : Event}
    (hParse : Event.parse text = .ok e)
    (hFree : e.DoubleFree)
    (key task : String)
    (storedAt : Int64)
    (s : Store) :
    let after := (put key task storedAt s e).2
    let r : PendingRecord Event := ⟨e, task, storedAt⟩
    (e.json.depth ≤ 126
        ∧ record? e.nameSpace key after = .ok (some r)
        ∧ take key after e.nameSpace
          = (.ok (some r), remove e.nameSpace key after))
      ∨ (e.json.depth = 127
        ∧ record? e.nameSpace key after
          = .error (.codec (.malformed .tooDeep))
        ∧ (take key after e.nameSpace).1
          = .error (.codec (.malformed .tooDeep))
        ∧ after.Agree (take key after e.nameSpace).2) := by
  intro after r
  have hRecord := record?_put key task storedAt s e
  have hReread := Event.reread_of_parse hParse hFree
  by_cases hDepth : e.json.depth ≤ 126
  · left
    rw [if_pos hDepth] at hReread
    rw [hReread] at hRecord
    have hRead :
        record? e.nameSpace key after = .ok (some r) :=
      hRecord
    refine ⟨hDepth, hRead, ?_⟩
    rw [take_eq, hRead]
  · right
    have hMost := Event.depth_le_of_parse hParse
    have hGreatest : greatestDepth = 127 := rfl
    rw [if_neg hDepth] at hReread
    rw [hReread] at hRecord
    have hRead :
        record? e.nameSpace key after
          = .error (.codec (.malformed .tooDeep)) :=
      hRecord
    refine ⟨by omega, hRead, ?_⟩
    rw [take_eq, hRead]
    exact ⟨rfl, agree_setLevel_level e.nameSpace after⟩

/- A message that was received is taken as it was put. -/
theorem take_put_seenReceived :
    ∃ e,
      Event.parse (Event.text (.received seenReceived)) = .ok e
        ∧ e.DoubleFree
        ∧ let after := (put "key" "task" 0 .empty e).2
          let r : PendingRecord Event := ⟨e, "task", 0⟩
          record? .awaitingOrigin "key" after = .ok (some r)
            ∧ take "key" after .awaitingOrigin
              = (.ok (some r),
                remove .awaitingOrigin "key" after) := by
  rcases Event.readAs_seenReceived.exists_parse with
    ⟨e, hParse, hFree, hDepth, hName⟩
  refine ⟨e, hParse, hFree, ?_⟩
  rcases take_put hParse hFree "key" "task" 0 .empty with
    ⟨-, hRecord, hTake⟩ | ⟨hDeep, -⟩
  · rw [hName] at hRecord hTake
    exact ⟨hRecord, hTake⟩
  · omega

end Pending

------------------------------------------------------------
-- An event that is too deep
------------------------------------------------------------

/- An array around an array, so many times. -/
def Json.nested : Nat → Json
  | 0 => .array []
  | n + 1 => .array [nested n]

/- A message with as many arrays as any text may have. -/
def deeplySeen : Received :=
  { seenReceived with event := .nested 125 }

theorem Event.readAs_deeplySeen :
    ReadAs
      (fun e =>
        e.DoubleFree
          ∧ e.json.depth = 127
          ∧ e.nameSpace = .awaitingOrigin
          ∧ e.subscription = "journeys"
          ∧ e.identity = some "0x01"
          ∧ e.nextChain? = some ⟨"target"⟩)
      (write (.received deeplySeen)) := by
  decide +kernel

/-
  An event that the parser admits waits, but what is stored
  for it is not read again: it is neither seen nor taken, and
  the sent side of its leg fails.
-/
theorem Pending.deeplySeen_not_taken :
    ∃ e,
      Event.parse (Event.text (.received deeplySeen)) = .ok e
        ∧ e.DoubleFree
        ∧ let begun := Matcher.begin 60000 .counted .empty
          let first := begun.handle (.still ⟨0⟩) e
          first.1.result = .ok .pending
            ∧ record? .awaitingOrigin Matcher.seenKey
                first.2.store
              = .error (.codec (.malformed .tooDeep))
            ∧ (take Matcher.seenKey first.2.store
                .awaitingOrigin).1
              = .error (.codec (.malformed .tooDeep))
            ∧ (first.2.handle (.still ⟨1⟩) (.sent seenSent)).1
              = .failed (.codec (.malformed .tooDeep)) := by
  rcases Event.readAs_deeplySeen.exists_parse with
    ⟨e, hParse, hFree, hDepth, hName, hSubscription, hIdentity,
      hChain⟩
  have hValid : ValidSubscription "journeys" := by decide
  have hKey : e.key = .ok Matcher.seenKey :=
    Event.key_eq_ok_iff.mpr
      ⟨⟨"journeys", "0x01", ⟨"target"⟩⟩,
        Event.legId?_eq_ok_iff.mpr
          ⟨hValid, hSubscription, hIdentity, hChain⟩,
        rfl⟩
  refine ⟨e, hParse, hFree, ?_⟩
  intro begun first
  have hFirst :
      first = begun.meet (.still ⟨0⟩) Matcher.seenKey e :=
    Matcher.handle_of_key (.still ⟨0⟩) rfl hKey
  have hMeeting :=
    begun.meeting_meet (.still ⟨0⟩) Matcher.seenKey e
  rcases hMeeting.of_empty
      (fun n => Matcher.Reachable.text?_begin _ _ n _) with
    ⟨hReply, hStored⟩
  rw [← hFirst] at hReply hStored
  have hReread := Event.reread_of_parse hParse hFree
  rw [if_neg (by omega)] at hReread
  have hRecord :
      record? .awaitingOrigin Matcher.seenKey first.2.store
        = .error (.codec (.malformed .tooDeep)) := by
    rw [record?, hStored, Matcher.text?_stored, hName,
      if_pos ⟨rfl, rfl⟩, ← hName]
    simp only [Matcher.newText, Event.decode_recordText,
      hReread, Except.map]
  have hRuns : first.2.stopped = false := by
    rw [hStored]
    rfl
  refine ⟨congrArg Reply.result hReply, hRecord, ?_, ?_⟩
  · rw [take_eq]
    exact hRecord
  · rw [Matcher.handle_of_key (.still ⟨1⟩) hRuns
      (show (Event.sent seenSent).key = .ok Matcher.seenKey
        from rfl)]
    have hSecond :=
      first.2.meeting_meet (.still ⟨1⟩) Matcher.seenKey
        (.sent seenSent)
    exact (hSecond.of_unread hRecord).1

end JourneyMatch
