import JourneyMatch.Proofs.Matcher.Changes
import JourneyMatch.Proofs.Matcher.Notice

/-
  This file says once what a call of the matcher can do. An
  event meets what waits under its key in one of nine ways,
  each with its reply and the matcher that it leaves; what
  holds of every call is shown of these nine ways.

  Key definitions include:
    * `Matcher.persistEvent`
    * `Matcher.Meeting`

  Main statements:
    * `Matcher.meeting_meet`
    * `Matcher.handle_of_key`
    * `Matcher.Meeting.text?_of_ne`
-/

namespace JourneyMatch

namespace Matcher

------------------------------------------------------------
-- Parts of a meeting
------------------------------------------------------------

/- Stores an event in the namespace of its kind. -/
def persistEvent
    (now : Readings)
    (key : String)
    (m : Matcher) :
    Event → Except StoreError Unit × Matcher
  | .sent message =>
      m.persist now .awaitingDestination key message
  | .received message =>
      m.persist now .awaitingOrigin key message
  | .relayed message => m.persist now .relayed key message

------------------------------------------------------------
-- The ways of a meeting
------------------------------------------------------------

/-
  How an event can meet what waits under a key: the reply,
  and the matcher afterwards. The first two ways end at a
  counterpart that does not decode, and `overwritten` at an
  entry of the event's own side that does not, which has
  been replaced by then.
-/
inductive Meeting
    (now : Readings)
    (key : String)
    (m : Matcher) : Event → Reply → Matcher → Prop where
  | unread
      {e : Event}
      {cause : StoreError}
      (hRead :
        Pending.record? e.counterpart key m.store
          = .error cause) :
      Meeting now key m e (.failed cause) m
  | unreadRelay
      {message : Sent}
      {inbound : Option (PendingRecord Event)}
      {cause : StoreError}
      (hInbound :
        Pending.record? .awaitingOrigin key m.store
          = .ok inbound)
      (hRead :
        Pending.record? .relayed key m.store = .error cause) :
      Meeting now key m (.sent message) (.failed cause) m
  | sentMatched
      {message : Sent}
      {inbound : PendingRecord Received}
      {relayed : Option (PendingRecord Relayed)}
      (hInbound :
        Pending.record? .awaitingOrigin key m.store
          = .ok (some (inbound.map .received)))
      (hRelayed :
        Pending.record? .relayed key m.store
          = .ok (relayed.map (·.map .relayed))) :
      Meeting now key m (.sent message)
        ⟨.ok .matched,
          relayNotice message relayed
            ++ [.ofLeg message inbound.message]⟩
        ((((m.remove .awaitingOrigin key).remove
          .relayed key).cancel
            inbound.expiryTask).cancelRelay relayed)
  | sentWaits
      {message : Sent}
      {relayed : Option (PendingRecord Relayed)}
      {old : Option (PendingRecord Event)}
      (hInbound :
        Pending.record? .awaitingOrigin key m.store
          = .ok none)
      (hRelayed :
        Pending.record? .relayed key m.store
          = .ok (relayed.map (·.map .relayed)))
      (hOld :
        Pending.record? .awaitingDestination key m.store
          = .ok old) :
      Meeting now key m (.sent message)
        ⟨.ok .pending, relayNotice message relayed⟩
        ((((m.stored now key (.sent message)).cancelOld
          old).dropRelay key relayed).cancelRelay relayed)
  | receivedMatched
      {message : Received}
      {outbound : PendingRecord Sent}
      (hOutbound :
        Pending.record? .awaitingDestination key m.store
          = .ok (some (outbound.map .sent))) :
      Meeting now key m (.received message)
        ⟨.ok .matched, [.ofLeg outbound.message message]⟩
        ((m.remove .awaitingDestination key).cancel
          outbound.expiryTask)
  | receivedWaits
      {message : Received}
      {old : Option (PendingRecord Event)}
      (hOutbound :
        Pending.record? .awaitingDestination key m.store
          = .ok none)
      (hOld :
        Pending.record? .awaitingOrigin key m.store
          = .ok old) :
      Meeting now key m (.received message)
        ⟨.ok .pending, []⟩
        ((m.stored now key (.received message)).cancelOld old)
  | relayedTold
      {message : Relayed}
      {outbound : PendingRecord Sent}
      (hOutbound :
        Pending.record? .awaitingDestination key m.store
          = .ok (some (outbound.map .sent))) :
      Meeting now key m (.relayed message)
        ⟨.ok .relayed, [.ofRelay outbound.message message]⟩ m
  | relayedWaits
      {message : Relayed}
      {old : Option (PendingRecord Event)}
      (hOutbound :
        Pending.record? .awaitingDestination key m.store
          = .ok none)
      (hOld :
        Pending.record? .relayed key m.store = .ok old) :
      Meeting now key m (.relayed message)
        ⟨.ok .pending, []⟩
        ((m.stored now key (.relayed message)).cancelOld old)
  | overwritten
      {e : Event}
      {cause : StoreError}
      (hCounterpart :
        Pending.record? e.counterpart key m.store = .ok none)
      (hRelayed :
        e.nameSpace = .awaitingDestination →
          ∃ relayed,
            Pending.record? .relayed key m.store = .ok relayed)
      (hOwn :
        Pending.record? e.nameSpace key m.store
          = .error cause) :
      Meeting now key m e (.failed cause)
        ((m.stored now key e).cancel
          (m.expiryTask now e.nameSpace key).key)

------------------------------------------------------------
-- Storing
------------------------------------------------------------

/- Storing a message reports what the entry before was. -/
theorem persist_eq
    {α : Type}
    [Wire α]
    (now : Readings)
    (n : Namespace)
    (key : String)
    (message : α)
    (m : Matcher) :
    m.persist now n key message
      = (let task := m.expiryTask now n key
        let text :=
          Wire.text
            (PendingRecord.mk message task.key
              (Int64.ofInt now.stored.unixMillis))
        let after : Matcher :=
          { m with
            store :=
              Pending.write n key text
                (TaskQueue.schedule [task] m.store)
            tags := m.tags.draw }
        match
          (Pending.level n m.store).get (PendingRecord α) key
        with
        | .ok none => (.ok (), after)
        | .ok (some old) => (.ok (), after.cancel old.expiryTask)
        | .error cause => (.error cause, after.cancel task.key)) := by
  have hLevel :
      (TaskQueue.schedule [m.expiryTask now n key]
          m.store).level n.name
        = Pending.level n m.store :=
    Pending.level_schedule n _ m.store
  unfold persist
  simp only [Store.onLevel, Level.put]
  change
    (match
      (((TaskQueue.schedule [m.expiryTask now n key]
        m.store).level n.name).get (PendingRecord α) key)
    with
    | .ok none => _
    | .ok (some old) => _
    | .error cause => _) = _
  rw [hLevel]
  rfl

/- Storing an event reports what the entry before was. -/
theorem persistEvent_eq
    (now : Readings)
    (key : String)
    (e : Event)
    (m : Matcher) :
    m.persistEvent now key e
      = match Pending.record? e.nameSpace key m.store with
        | .ok old =>
            (.ok (), (m.stored now key e).cancelOld old)
        | .error cause =>
            (.error cause,
              (m.stored now key e).cancel
                (m.expiryTask now e.nameSpace key).key) := by
  cases e with
  | sent message =>
      simp only [persistEvent, persist_eq, Event.nameSpace,
        Pending.record?_awaitingDestination]
      rcases
          (Pending.level .awaitingDestination m.store).get
            (PendingRecord Sent) key with
        cause | _ | old <;> rfl
  | received message =>
      simp only [persistEvent, persist_eq, Event.nameSpace,
        Pending.record?_awaitingOrigin]
      rcases
          (Pending.level .awaitingOrigin m.store).get
            (PendingRecord Received) key with
        cause | _ | old <;> rfl
  | relayed message =>
      simp only [persistEvent, persist_eq, Event.nameSpace,
        Pending.record?_relayed]
      rcases
          (Pending.level .relayed m.store).get
            (PendingRecord Relayed) key with
        cause | _ | old <;> rfl

------------------------------------------------------------
-- Every call is one of the ways
------------------------------------------------------------

theorem meeting_meetSent
    (now : Readings)
    (key : String)
    (message : Sent)
    (m : Matcher) :
    Meeting now key m (.sent message)
      (m.meetSent now key message).1
      (m.meetSent now key message).2 := by
  have hOrigin := Pending.record?_awaitingOrigin key m.store
  have hRelayed := Pending.record?_relayed key m.store
  have hPersist := m.persistEvent_eq now key (.sent message)
  simp only [persistEvent, Event.nameSpace] at hPersist
  rcases hInbound :
      (Pending.level .awaitingOrigin m.store).get
        (PendingRecord Received) key with
    cause | _ | inbound <;>
    rw [hInbound] at hOrigin
  · simp only [meetSent, hInbound]
    exact .unread hOrigin
  all_goals
    rcases hRelay :
        (Pending.level .relayed m.store).get
          (PendingRecord Relayed) key with
      cause | relayed <;>
      rw [hRelay] at hRelayed <;>
      simp only [meetSent, hInbound, hRelay,
        Notification.ofSent_legKind]
  · exact .unreadRelay hOrigin hRelayed
  · rw [hPersist]
    cases hOwn :
        Pending.record? .awaitingDestination key m.store with
    | error cause =>
        exact .overwritten hOrigin (fun _ => ⟨_, hRelayed⟩) hOwn
    | ok old => exact .sentWaits hOrigin hRelayed hOwn
  · exact .unreadRelay hOrigin hRelayed
  · exact .sentMatched hOrigin hRelayed

theorem meeting_meetReceived
    (now : Readings)
    (key : String)
    (message : Received)
    (m : Matcher) :
    Meeting now key m (.received message)
      (m.meetReceived now key message).1
      (m.meetReceived now key message).2 := by
  have hDestination :=
    Pending.record?_awaitingDestination key m.store
  have hPersist :=
    m.persistEvent_eq now key (.received message)
  simp only [persistEvent, Event.nameSpace] at hPersist
  have hTake :=
    Pending.onLevel_take (PendingRecord Sent)
      .awaitingDestination key m.store
  rcases hOutbound :
      (Pending.level .awaitingDestination m.store).get
        (PendingRecord Sent) key with
    cause | _ | outbound <;>
    rw [hOutbound] at hDestination <;>
    rw [hOutbound] at hTake <;>
    simp only [meetReceived, hTake,
      Notification.ofSent_legKind]
  · exact .unread hDestination
  · rw [hPersist]
    cases hOwn :
        Pending.record? .awaitingOrigin key m.store with
    | error cause =>
        exact .overwritten hDestination
          (fun hSent => by cases hSent) hOwn
    | ok old => exact .receivedWaits hDestination hOwn
  · exact .receivedMatched hDestination

theorem meeting_meetRelayed
    (now : Readings)
    (key : String)
    (message : Relayed)
    (m : Matcher) :
    Meeting now key m (.relayed message)
      (m.meetRelayed now key message).1
      (m.meetRelayed now key message).2 := by
  have hDestination :=
    Pending.record?_awaitingDestination key m.store
  have hPersist :=
    m.persistEvent_eq now key (.relayed message)
  simp only [persistEvent, Event.nameSpace] at hPersist
  rcases hOutbound :
      (Pending.level .awaitingDestination m.store).get
        (PendingRecord Sent) key with
    cause | _ | outbound <;>
    rw [hOutbound] at hDestination <;>
    simp only [meetRelayed, hOutbound,
      Notification.ofSent_relayed]
  · exact .unread hDestination
  · rw [hPersist]
    cases hOwn : Pending.record? .relayed key m.store with
    | error cause =>
        exact .overwritten hDestination
          (fun hSent => by cases hSent) hOwn
    | ok old => exact .relayedWaits hDestination hOwn
  · exact .relayedTold hDestination

/- Every meeting is one of the ways. -/
theorem meeting_meet
    (now : Readings)
    (key : String)
    (e : Event)
    (m : Matcher) :
    Meeting now key m e
      (m.meet now key e).1 (m.meet now key e).2 := by
  cases e with
  | sent message => exact m.meeting_meetSent now key message
  | received message =>
      exact m.meeting_meetReceived now key message
  | relayed message =>
      exact m.meeting_meetRelayed now key message

/- A running matcher lets an event with a key meet. -/
theorem handle_of_key
    {m : Matcher}
    {e : Event}
    {key : String}
    (now : Readings)
    (hRuns : m.stopped = false)
    (hKey : e.key = .ok key) :
    m.handle now e = m.meet now key e := by
  simp [handle, hRuns, hKey]

/- A running matcher turns away an event without a key. -/
theorem handle_of_reason
    {m : Matcher}
    {e : Event}
    {reason : RejectReason}
    (now : Readings)
    (hRuns : m.stopped = false)
    (hKey : e.key = .error reason) :
    m.handle now e = (.rejected reason, m) := by
  simp [handle, hRuns, hKey]

/- A stopped matcher turns away every event. -/
theorem handle_of_stopped
    {m : Matcher}
    (now : Readings)
    (e : Event)
    (hStopped : m.stopped = true) :
    m.handle now e = (.rejected .stopped, m) := by
  simp [handle, hStopped]

------------------------------------------------------------
-- What every meeting keeps
------------------------------------------------------------

namespace Meeting

variable {now : Readings}
variable {key : String}
variable {m after : Matcher}
variable {e : Event}
variable {reply : Reply}

/- A meeting leaves the entries of other keys alone. -/
theorem text?_of_ne
    (hMeeting : Meeting now key m e reply after)
    {n : Namespace}
    {other : String}
    (hOther : other ≠ key) :
    Pending.text? n other after.store
      = Pending.text? n other m.store := by
  cases hMeeting with
  | unread => rfl
  | unreadRelay => rfl
  | relayedTold => rfl
  | sentMatched => simp [hOther]
  | receivedMatched => simp [hOther]
  | receivedWaits => simp [hOther]
  | relayedWaits => simp [hOther]
  | overwritten => simp [hOther]
  | @sentWaits message relayed old =>
      cases relayed <;> simp [dropRelay_eq, hOther]

/-
  Whatever stands in a namespace after a meeting stood there
  before, unless it is the record of the event itself, which
  is only stored where its counterpart is missing.
-/
theorem text?_cases
    (hMeeting : Meeting now key m e reply after)
    {n : Namespace}
    {other text : String}
    (hText : Pending.text? n other after.store = some text) :
    Pending.text? n other m.store = some text
      ∨ (n = e.nameSpace ∧ other = key
        ∧ text = m.newText now key e
        ∧ Pending.record? e.counterpart key m.store
          = .ok none) := by
  have hStored :
      Pending.record? e.counterpart key m.store = .ok none →
        Pending.text? n other (m.stored now key e).store
            = some text →
          Pending.text? n other m.store = some text
            ∨ (n = e.nameSpace ∧ other = key
              ∧ text = m.newText now key e
              ∧ Pending.record? e.counterpart key m.store
                = .ok none) := by
    intro hAlone hAfter
    rcases text?_stored_cases hAfter with hOld | hNew
    · exact .inl hOld
    · exact .inr ⟨hNew.1, hNew.2.1, hNew.2.2, hAlone⟩
  cases hMeeting with
  | unread => exact .inl hText
  | unreadRelay => exact .inl hText
  | relayedTold => exact .inl hText
  | sentMatched =>
      simp only [text?_cancelRelay, store_cancel,
        Pending.text?_cancel, store_remove] at hText
      exact .inl
        (Pending.text?_of_text?_remove
          (Pending.text?_of_text?_remove hText))
  | receivedMatched =>
      simp only [store_cancel, Pending.text?_cancel,
        store_remove] at hText
      exact .inl (Pending.text?_of_text?_remove hText)
  | receivedWaits hOutbound =>
      rw [text?_cancelOld] at hText
      exact hStored hOutbound hText
  | relayedWaits hOutbound =>
      rw [text?_cancelOld] at hText
      exact hStored hOutbound hText
  | overwritten hCounterpart =>
      rw [store_cancel, Pending.text?_cancel] at hText
      exact hStored hCounterpart hText
  | @sentWaits message relayed old hInbound =>
      rw [text?_cancelRelay, dropRelay_eq] at hText
      apply hStored hInbound
      cases relayed with
      | none => simpa only [text?_cancelOld] using hText
      | some r =>
          have hBefore := Pending.text?_of_text?_remove hText
          simpa only [text?_cancelOld] using hBefore

/- A meeting does not stop the matcher. -/
theorem stopped_eq
    (hMeeting : Meeting now key m e reply after) :
    after.stopped = m.stopped := by
  cases hMeeting <;> simp [remove, cancel, stored]

/- Nor does it change the usual expiry. -/
theorem expiry_eq
    (hMeeting : Meeting now key m e reply after) :
    after.expiry = m.expiry := by
  cases hMeeting <;> simp [remove, cancel, stored]

end Meeting

end Matcher

end JourneyMatch
