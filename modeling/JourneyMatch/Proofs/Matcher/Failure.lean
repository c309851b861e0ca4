import JourneyMatch.Proofs.Matcher.Meeting
import JourneyMatch.Proofs.Store.Comparison

/-
  This file says what a call that fails leaves behind. Where
  the other side of an event does not decode, nothing has
  been written yet. Where the event's own entry does not, it
  is found out too late: the entry has been replaced, and its
  task is no longer known.

  Key definitions include:
    * `Matcher.freshTask`
    * `Matcher.Blocked`

  Main statements:
    * `Matcher.Meeting.failed_cases`
    * `Matcher.failed_agree_iff`
-/

namespace JourneyMatch

------------------------------------------------------------
-- Records that are refused
------------------------------------------------------------

/- A record that is refused does not decode. -/
theorem Pending.codec_of_record?
    {n : Namespace}
    {key : String}
    {s : Store}
    {cause : StoreError}
    (hRead : record? n key s = .error cause) :
    ∃ reason, cause = .codec reason := by
  have hDecode :
      ∀ (α : Type) [Wire α] (f : α → PendingRecord Event)
        (text : String),
        (decodeStored α text).map f = .error cause →
          ∃ reason, cause = .codec reason := by
    intro α _ f text hText
    unfold decodeStored at hText
    cases hParse : Wire.parse α text with
    | ok x => simp [hParse, Except.map] at hText
    | error reason =>
        simp only [hParse, Except.map] at hText
        cases hText
        exact ⟨reason, rfl⟩
  unfold record? at hRead
  cases hText : text? n key s with
  | none => simp [hText] at hRead
  | some text =>
      have hError : n.decode text = .error cause := by
        cases hCase : n.decode text with
        | ok r => simp [hText, hCase, Except.map] at hRead
        | error other =>
            simp only [hText, hCase, Except.map] at hRead
            cases hRead
            rfl
      cases n <;> exact hDecode _ _ text hError

namespace Matcher

------------------------------------------------------------
-- What a failed meeting leaves
------------------------------------------------------------

/- The key of the next task that is scheduled. -/
def freshTask
    (now : Readings)
    (m : Matcher) : String :=
  taskKey (Janitor.due now.scheduled m.expiry) m.tags.next

@[simp] theorem key_expiryTask
    (now : Readings)
    (n : Namespace)
    (key : String)
    (m : Matcher) :
    (m.expiryTask now n key).key = m.freshTask now :=
  rfl

/-
  Whether an event meets an observation of another kind that
  does not decode: one of the other side, or a relay that a
  sent message would tell.
-/
def Blocked
    (key : String)
    (e : Event)
    (m : Matcher) : Prop :=
  (∃ cause,
      Pending.record? e.counterpart key m.store
        = .error cause)
    ∨ (e.nameSpace = .awaitingDestination
      ∧ ∃ cause,
        Pending.record? .relayed key m.store = .error cause)

/-
  A meeting that fails has changed nothing, or has replaced
  an entry of the event's own side that does not decode.
-/
theorem Meeting.failed_cases
    {now : Readings}
    {key : String}
    {m after : Matcher}
    {e : Event}
    {reply : Reply}
    {cause : MatchError}
    (hMeeting : Meeting now key m e reply after)
    (hFailed : reply.result = .error cause) :
    (m.Blocked key e ∧ after = m)
      ∨ (¬ m.Blocked key e
        ∧ after
          = (m.stored now key e).cancel (m.freshTask now)) := by
  cases hMeeting with
  | unread hRead => exact .inl ⟨.inl ⟨_, hRead⟩, rfl⟩
  | unreadRelay hInbound hRead =>
      exact .inl ⟨.inr ⟨rfl, _, hRead⟩, rfl⟩
  | sentMatched => cases hFailed
  | sentWaits => cases hFailed
  | receivedMatched => cases hFailed
  | receivedWaits => cases hFailed
  | relayedTold => cases hFailed
  | relayedWaits => cases hFailed
  | overwritten hCounterpart hRelayed hOwn =>
      refine .inr ⟨?_, rfl⟩
      rintro (⟨other, hOther⟩ | ⟨hSent, other, hOther⟩)
      · rw [hCounterpart] at hOther
        cases hOther
      · rcases hRelayed hSent with ⟨relayed, hRead⟩
        rw [hRead] at hOther
        cases hOther

/- A meeting that fails tells nothing but what was found. -/
theorem Meeting.failed_reply
    {now : Readings}
    {key : String}
    {m after : Matcher}
    {e : Event}
    {reply : Reply}
    {cause : MatchError}
    (hMeeting : Meeting now key m e reply after)
    (hFailed : reply.result = .error cause) :
    reply.notifications = []
      ∧ ∃ reason, cause = .store (.codec reason) := by
  have hCodec :
      ∀ (n : Namespace) (found : StoreError),
        Pending.record? n key m.store = .error found →
          (Reply.failed found).result = .error cause →
            ∃ reason, cause = .store (.codec reason) := by
    intro n found hRead hResult
    rcases Pending.codec_of_record? hRead with ⟨reason, hReason⟩
    cases hResult
    exact ⟨reason, congrArg MatchError.store hReason⟩
  cases hMeeting with
  | unread hRead => exact ⟨rfl, hCodec _ _ hRead hFailed⟩
  | unreadRelay _ hRead =>
      exact ⟨rfl, hCodec _ _ hRead hFailed⟩
  | overwritten _ _ hOwn =>
      exact ⟨rfl, hCodec _ _ hOwn hFailed⟩
  | sentMatched => cases hFailed
  | sentWaits => cases hFailed
  | receivedMatched => cases hFailed
  | receivedWaits => cases hFailed
  | relayedTold => cases hFailed
  | relayedWaits => cases hFailed

/- A replaced entry is the only thing that has changed. -/
theorem text?_overwritten
    (now : Readings)
    (n : Namespace)
    (key other : String)
    (e : Event)
    (m : Matcher) :
    Pending.text? n other
        ((m.stored now key e).cancel (m.freshTask now)).store
      = if n = e.nameSpace ∧ other = key then
          some (m.newText now key e)
        else Pending.text? n other m.store := by
  rw [store_cancel, Pending.text?_cancel, text?_stored]

/- The task of a replacement that failed is gone again. -/
theorem task_overwritten
    (now : Readings)
    (key task : String)
    (e : Event)
    (m : Matcher) :
    TaskQueue.text? task
        ((m.stored now key e).cancel (m.freshTask now)).store
      = if task = m.freshTask now then none
        else TaskQueue.text? task m.store := by
  rw [store_cancel, TaskQueue.text?_cancel, task_stored,
    key_expiryTask]
  by_cases hTask : task = m.freshTask now
  · rw [if_pos hTask, if_pos hTask]
  · rw [if_neg hTask, if_neg hTask, if_neg hTask]

/-
  A replacement that failed is seen in the store, unless the
  entry had the very same text before, and the queue no task
  of the key that has been cancelled.
-/
theorem agree_overwritten_iff
    (now : Readings)
    (key : String)
    (e : Event)
    (m : Matcher) :
    m.store.Agree
        ((m.stored now key e).cancel (m.freshTask now)).store
      ↔ Pending.text? e.nameSpace key m.store
          = some (m.newText now key e)
        ∧ TaskQueue.text? (m.freshTask now) m.store = none := by
  constructor
  · intro hAgree
    constructor
    · rw [hAgree.entries, text?_overwritten,
        if_pos ⟨rfl, rfl⟩]
    · rw [hAgree.tasks, task_overwritten, if_pos rfl]
  · rintro ⟨hSame, hFresh⟩
    constructor
    · intro n other
      rw [text?_overwritten]
      split
      · rename_i hHere
        rw [hHere.1, hHere.2, hSame]
      · rfl
    · intro task
      rw [task_overwritten]
      by_cases hTask : task = m.freshTask now
      · rw [if_pos hTask, hTask, hFresh]
      · rw [if_neg hTask]

------------------------------------------------------------
-- Calls that fail
------------------------------------------------------------

/- A call that fails is a meeting that fails. -/
theorem exists_key_of_failed
    {now : Readings}
    {m : Matcher}
    {e : Event}
    {cause : MatchError}
    (hFailed : (m.handle now e).1.result = .error cause) :
    ∃ key, e.key = .ok key ∧ m.handle now e = m.meet now key e := by
  cases hStopped : m.stopped with
  | true =>
      rw [handle_of_stopped now e hStopped] at hFailed
      cases hFailed
  | false =>
      cases hKey : e.key with
      | error reason =>
          rw [handle_of_reason now hStopped hKey] at hFailed
          cases hFailed
      | ok key =>
          exact ⟨key, rfl, handle_of_key now hStopped hKey⟩

/-
  A call that fails notifies nothing, and what fails is that
  a value does not decode. It leaves every entry and every
  task as it was exactly where the value is one of another
  kind than the event; otherwise the entry of the event has
  been replaced, which only a text that was the same, and a
  task that was not there, would hide.
-/
theorem failed_agree_iff
    (now : Readings)
    (m : Matcher)
    (e : Event)
    (cause : MatchError)
    (hFailed : (m.handle now e).1.result = .error cause) :
    (m.handle now e).1.notifications = []
      ∧ (∃ reason, cause = .store (.codec reason))
      ∧ ∃ key,
        e.key = .ok key
          ∧ (m.store.Agree (m.handle now e).2.store ↔
            m.Blocked key e
              ∨ Pending.text? e.nameSpace key m.store
                  = some (m.newText now key e)
                ∧ TaskQueue.text? (m.freshTask now) m.store
                  = none) := by
  rcases exists_key_of_failed hFailed with ⟨key, hKey, hMeet⟩
  rw [hMeet] at hFailed ⊢
  have hMeeting := m.meeting_meet now key e
  rcases hMeeting.failed_reply hFailed with ⟨hSilent, hCodec⟩
  refine ⟨hSilent, hCodec, key, hKey, ?_⟩
  rcases hMeeting.failed_cases hFailed with
    ⟨hBlocked, hAfter⟩ | ⟨hFree, hAfter⟩
  · rw [hAfter]
    exact iff_of_true (Store.Agree.refl _) (.inl hBlocked)
  · rw [hAfter, agree_overwritten_iff]
    exact (or_iff_right hFree).symm

------------------------------------------------------------
-- An entry that does not decode
------------------------------------------------------------

/- The key of the message. -/
def seenKey : String :=
  pendingKey "journeys" (correlationKey "0x01" ⟨"target"⟩)

/- A matcher that holds a text of no meaning for it. -/
def misread : Matcher :=
  { store := Pending.write .relayed seenKey "1" .empty
    tags := .counted
    expiry := 0
    stopped := false }

theorem key_seenRelay :
    (Event.relayed seenRelay).key = .ok seenKey :=
  rfl

theorem record?_misread :
    Pending.record? .relayed seenKey misread.store
      = .error (.codec (.mismatch .wrongKind)) := by
  have hText :
      Pending.text? .relayed seenKey misread.store
        = some "1" := by
    simp [misread]
  have hDecode :
      Namespace.decode "1" .relayed
        = .error (.codec (.mismatch .wrongKind)) := by
    rfl
  simp only [Pending.record?, hText, hDecode, Except.map]

theorem handle_misread :
    misread.handle (.still ⟨0⟩) (.relayed seenRelay)
      = (.failed (.codec (.mismatch .wrongKind)),
        (misread.stored (.still ⟨0⟩) seenKey
          (.relayed seenRelay)).cancel
            (misread.freshTask (.still ⟨0⟩))) := by
  have hOutbound :
      Pending.record? .awaitingDestination seenKey misread.store
        = .ok none :=
    Pending.record?_of_text?_eq_none (by
      simp only [misread, Pending.text?_write]
      rfl)
  have hPersist :=
    misread.persistEvent_eq (.still ⟨0⟩) seenKey
      (.relayed seenRelay)
  simp only [Event.nameSpace, record?_misread,
    persistEvent] at hPersist
  rw [handle_of_key (.still ⟨0⟩) rfl key_seenRelay]
  rw [Pending.record?_awaitingDestination] at hOutbound
  cases hGet :
      (Pending.level .awaitingDestination misread.store).get
        (PendingRecord Sent) seenKey with
  | error cause => simp [hGet, Except.map] at hOutbound
  | ok found =>
      cases found with
      | some r => simp [hGet, Except.map] at hOutbound
      | none =>
          simp only [meet, meetRelayed, hGet, hPersist]
          rfl

theorem result_misread :
    (misread.handle (.still ⟨0⟩) (.relayed seenRelay)).1.result
      = .error (.store (.codec (.mismatch .wrongKind))) := by
  rw [handle_misread]
  rfl

/- No record has the text of a number. -/
theorem text?_misread_ne :
    Pending.text? .relayed seenKey misread.store
      ≠ some (misread.newText (.still ⟨0⟩) seenKey
        (.relayed seenRelay)) := by
  intro hText
  have hHeld :
      Pending.text? .relayed seenKey misread.store
        = some "1" := by
    simp [misread]
  rw [hHeld] at hText
  have hChars := congrArg String.toList (Option.some.inj hText)
  rcases Event.exists_recordText
      (misread.expiryTask (.still ⟨0⟩) .relayed seenKey).key
      (Int64.ofInt (Instant.mk 0).unixMillis)
      (.relayed seenRelay) with
    ⟨rest, hRest⟩
  rw [newText] at hChars
  exact absurd
    (List.head_eq_of_cons_eq (hChars.trans hRest)) (by decide)

/- A call has failed, and the entry is another one. -/
theorem failed_relay_replaces_entry :
    (misread.handle (.still ⟨0⟩) (.relayed seenRelay)).1.result
        = .error (.store (.codec (.mismatch .wrongKind)))
      ∧ ¬ misread.store.Agree
        (misread.handle (.still ⟨0⟩)
          (.relayed seenRelay)).2.store := by
  refine ⟨result_misread, ?_⟩
  rw [handle_misread, agree_overwritten_iff]
  rintro ⟨hText, -⟩
  exact text?_misread_ne hText

theorem failed_agree_iff_relay :
    ∃ key,
      (Event.relayed seenRelay).key = .ok key
        ∧ (misread.store.Agree
            (misread.handle (.still ⟨0⟩)
              (.relayed seenRelay)).2.store ↔
          misread.Blocked key (.relayed seenRelay)
            ∨ Pending.text? .relayed key misread.store
                = some
                  (misread.newText (.still ⟨0⟩) key
                    (.relayed seenRelay))
              ∧ TaskQueue.text? (misread.freshTask (.still ⟨0⟩))
                  misread.store
                = none) :=
  (failed_agree_iff (.still ⟨0⟩) misread (.relayed seenRelay) _
    result_misread).2.2

end Matcher

end JourneyMatch
