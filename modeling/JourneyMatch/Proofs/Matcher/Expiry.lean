import JourneyMatch.Proofs.Matcher.Counterpart
import JourneyMatch.Proofs.Matcher.Failure
import JourneyMatch.Proofs.Matcher.Run
import JourneyMatch.Proofs.Store.Sweep
import JourneyMatch.Proofs.Task.Key

/-
  This file shows that every history keeps entries and tasks
  paired. A task is scheduled before its entry is written and
  cancelled after the entry is gone, so that each call is
  taken apart into steps that add or remove an entry together
  with its task.

  Key definitions include:
    * `Matcher.Drawn`

  Main statements:
    * `Matcher.Meeting.paired`
    * `Matcher.paired_move`
    * `Matcher.Reachable.bijOn_expiryTask`
    * `Matcher.Reachable.move_of_alone`
-/

namespace JourneyMatch

------------------------------------------------------------
-- Events
------------------------------------------------------------

namespace Matcher

variable {now : Readings}
variable {key : String}
variable {m : Matcher}

/- The text of the task that is scheduled for an entry. -/
theorem text_expiryTask
    (now : Readings)
    (n : Namespace)
    (key : String)
    (m : Matcher) :
    Wire.text (m.expiryTask now n key).stored
      = sweepText n key :=
  rfl

/-
  An event is stored with a fresh task, and the task of the
  entry that it replaces is cancelled.
-/
theorem paired_stored
    {e : Event}
    {old : Option (PendingRecord Event)}
    (hPaired : m.store.Paired)
    (hStorable : e.Storable)
    (hFresh :
      TaskQueue.text? (m.freshTask now) m.store = none)
    (hOld :
      Pending.record? e.nameSpace key m.store = .ok old) :
    ((m.stored now key e).cancelOld old).store.Paired := by
  cases old with
  | none =>
      apply hPaired.add hStorable
        (Pending.text?_eq_none_of_record? hOld) hFresh
      · intro n other
        rw [text?_cancelOld, text?_stored]
        rfl
      · intro other
        rw [cancelOld, task_stored, text_expiryTask,
          key_expiryTask]
  | some r =>
      have hNames := hPaired.names_of_record? hOld
      have hTaken := hPaired.taken hNames
      have hTask := hPaired.text?_of_names hNames
      have hNe : m.freshTask now ≠ r.expiryTask := by
        intro hEq
        rw [← hEq, hFresh] at hTask
        cases hTask
      have hEmpty :
          Pending.text? e.nameSpace key
              (TaskQueue.cancel r.expiryTask
                (Pending.remove e.nameSpace key m.store)).2
            = none := by
        simp
      have hStillFresh :
          TaskQueue.text? (m.freshTask now)
              (TaskQueue.cancel r.expiryTask
                (Pending.remove e.nameSpace key m.store)).2
            = none := by
        rw [TaskQueue.text?_cancel, if_neg hNe,
          TaskQueue.text?_remove, hFresh]
      apply hTaken.add hStorable hEmpty hStillFresh
      · intro n other
        rw [text?_cancelOld, text?_stored,
          Pending.text?_cancel, Pending.text?_remove]
        split <;> rfl
      · intro other
        simp only [cancelOld, store_cancel,
          TaskQueue.text?_cancel, task_stored, key_expiryTask,
          text_expiryTask, TaskQueue.text?_remove]
        by_cases hOther : other = r.expiryTask
        · rw [if_pos hOther, if_pos hOther,
            if_neg (hOther ▸ Ne.symm hNe)]
        · rw [if_neg hOther, if_neg hOther]
          rfl

/- A relay is dropped together with its task. -/
theorem paired_dropRelay
    {relayed : Option (PendingRecord Relayed)}
    (hPaired : m.store.Paired)
    (hRelayed :
      Pending.record? .relayed key m.store
        = .ok (relayed.map (·.map .relayed))) :
    ((m.dropRelay key relayed).cancelRelay
      relayed).store.Paired := by
  cases relayed with
  | none => exact hPaired
  | some r =>
      rw [Option.map_some] at hRelayed
      have hNames := hPaired.names_of_record? hRelayed
      rw [PendingRecord.expiryTask_map] at hNames
      simp only [dropRelay_eq, cancelRelay]
      exact hPaired.taken hNames

/-
  A relay that is removed at once with the received message,
  be there one or not, could be dropped afterwards as well.
-/
theorem agree_remove_dropRelay
    {relayed : Option (PendingRecord Relayed)}
    (task : String)
    (hRelayed :
      Pending.record? .relayed key m.store
        = .ok (relayed.map (·.map .relayed))) :
    ((((m.remove .awaitingOrigin key).cancel task).dropRelay
        key relayed).cancelRelay relayed).store.Agree
      ((((m.remove .awaitingOrigin key).remove .relayed
        key).cancel task).cancelRelay relayed).store := by
  cases relayed with
  | none =>
      have hNone := Pending.text?_eq_none_of_record? hRelayed
      constructor
      · intro n other
        simp only [dropRelay, cancelRelay, store_cancel,
          Pending.text?_cancel, store_remove,
          Pending.text?_remove]
        by_cases hHere : n = .relayed ∧ other = key
        · rw [if_pos hHere, hHere.1, hHere.2, hNone]
          simp
        · rw [if_neg hHere]
      · intro task
        simp [dropRelay, cancelRelay]
  | some r =>
      constructor
      · intro n other
        simp [dropRelay_eq, cancelRelay]
      · intro task
        simp [dropRelay_eq, cancelRelay]

/- Every meeting with a storable event keeps stores paired. -/
theorem Meeting.paired
    {after : Matcher}
    {e : Event}
    {reply : Reply}
    (hMeeting : Meeting now key m e reply after)
    (hStorable : e.Storable)
    (hFresh :
      TaskQueue.text? (m.freshTask now) m.store = none)
    (hPaired : m.store.Paired) :
    after.store.Paired := by
  cases hMeeting with
  | unread => exact hPaired
  | unreadRelay => exact hPaired
  | relayedTold => exact hPaired
  | @sentMatched message inbound relayed hInbound hRelayed =>
      have hNames := hPaired.names_of_record? hInbound
      rw [PendingRecord.expiryTask_map] at hNames
      have hTaken :
          ((m.remove .awaitingOrigin key).cancel
            inbound.expiryTask).store.Paired :=
        hPaired.taken hNames
      have hRest :
          Pending.record? .relayed key
              ((m.remove .awaitingOrigin key).cancel
                inbound.expiryTask).store
            = .ok (relayed.map (·.map .relayed)) := by
        rw [← hRelayed]
        apply Pending.record?_congr
        simp
      exact (paired_dropRelay hTaken hRest).of_agree
        (agree_remove_dropRelay inbound.expiryTask hRelayed)
  | @sentWaits message relayed old hInbound hRelayed hOld =>
      apply paired_dropRelay
        (paired_stored hPaired hStorable hFresh hOld)
      rw [← hRelayed]
      apply Pending.record?_congr
      simp [Event.nameSpace]
  | receivedMatched hOutbound =>
      have hNames := hPaired.names_of_record? hOutbound
      rw [PendingRecord.expiryTask_map] at hNames
      exact hPaired.taken hNames
  | receivedWaits hOutbound hOld =>
      exact paired_stored hPaired hStorable hFresh hOld
  | relayedWaits hOutbound hOld =>
      exact paired_stored hPaired hStorable hFresh hOld
  | overwritten hCounterpart hRelayed hOwn =>
      rcases hPaired.exists_record? e.nameSpace key with
        ⟨found, hFound⟩
      rw [hOwn] at hFound
      cases hFound

end Matcher

------------------------------------------------------------
-- Removals
------------------------------------------------------------

/- Taking an entry cancels the task that it names. -/
theorem Store.Paired.keptByTaking :
    Pending.KeptByTaking Store.Paired := by
  intro n key text r s hPaired hText hDecode
  rcases hPaired.entry n key text hText with ⟨task, hNames, -⟩
  rw [hNames.decodeJson_eq hText hDecode]
  exact hPaired.taken hNames

/- A move that brings no event keeps stores paired. -/
theorem Matcher.paired_move
    {m : Matcher}
    {next : Move}
    (hNext : next.Admits fun _ => False)
    (hPaired : m.store.Paired) :
    (m.move next).store.Paired := by
  cases next with
  | event now e => exact hNext.elim
  | clear subscription =>
      exact clear_keeps Store.Paired.keptByTaking subscription
        hPaired
  | delete n key =>
      exact Admin.deletePending_keeps
        Store.Paired.keptByTaking n key hPaired
  | setExpiry millis => exact hPaired
  | sweep now => exact hPaired.fireDue now

------------------------------------------------------------
-- Fresh tasks
------------------------------------------------------------

namespace Matcher

variable {now : Readings}
variable {key : String}
variable {m after : Matcher}
variable {tags : TagSource}

/- Whether every task of the queue has a tag drawn before. -/
structure Drawn
    (tags : TagSource)
    (m : Matcher) : Prop where
  tag : m.tags.tag = tags.tag
  tasks :
    ∀ task text,
      TaskQueue.text? task m.store = some text →
        ∃ i due,
          i < m.tags.drawn ∧ task = taskKey due (tags.tag i)

/- A tag that has not been drawn makes a fresh key. -/
theorem Drawn.fresh
    (hDrawn : m.Drawn tags)
    (hTags : tags.NeverRepeats)
    (now : Readings) :
    TaskQueue.text? (m.freshTask now) m.store = none := by
  cases hTask : TaskQueue.text? (m.freshTask now) m.store with
  | none => rfl
  | some text =>
      rcases hDrawn.tasks _ text hTask with
        ⟨i, due, hBefore, hKey⟩
      rw [freshTask, TagSource.next, hDrawn.tag] at hKey
      have hEq := hTags _ _ _ _ hKey
      omega

theorem Drawn.of_within
    (hDrawn : m.Drawn tags)
    (hRest : after.tags = m.tags)
    (hWithin : after.store.Within m.store) :
    after.Drawn tags := by
  constructor
  · rw [hRest]
    exact hDrawn.tag
  · intro task text hText
    rw [hRest]
    exact hDrawn.tasks task text (hWithin.tasks task text hText)

/- Storing an event draws the tag of its task. -/
theorem Drawn.stored
    (hDrawn : m.Drawn tags)
    (now : Readings)
    (key : String)
    (e : Event) :
    (m.stored now key e).Drawn tags := by
  have hCount :
      (m.stored now key e).tags.drawn = m.tags.drawn + 1 := rfl
  constructor
  · exact hDrawn.tag
  · intro task text hText
    rw [task_stored, key_expiryTask] at hText
    rw [hCount]
    split at hText
    · rename_i hTask
      refine ⟨m.tags.drawn, Janitor.due now.scheduled m.expiry,
        Nat.lt_succ_self _, ?_⟩
      rw [hTask, freshTask, TagSource.next, hDrawn.tag]
    · rcases hDrawn.tasks task text hText with
        ⟨i, due, hBefore, hKey⟩
      exact ⟨i, due, Nat.lt_succ_of_lt hBefore, hKey⟩

theorem within_cancelOld
    (old : Option (PendingRecord Event))
    (m : Matcher) :
    (m.cancelOld old).store.Within m.store := by
  cases old with
  | none => exact Store.Within.refl _
  | some r => exact Store.Within.cancel _ _

theorem within_cancelRelay
    (relayed : Option (PendingRecord Relayed))
    (m : Matcher) :
    (m.cancelRelay relayed).store.Within m.store := by
  cases relayed with
  | none => exact Store.Within.refl _
  | some r => exact Store.Within.cancel _ _

theorem within_dropRelay
    (key : String)
    (relayed : Option (PendingRecord Relayed))
    (m : Matcher) :
    (m.dropRelay key relayed).store.Within m.store := by
  rw [dropRelay_eq]
  cases relayed with
  | none => exact Store.Within.refl _
  | some r => exact Store.Within.remove _ _ _

theorem Meeting.drawn
    {e : Event}
    {reply : Reply}
    (hMeeting : Meeting now key m e reply after)
    (hDrawn : m.Drawn tags) :
    after.Drawn tags := by
  have hStored := hDrawn.stored now key e
  cases hMeeting with
  | unread => exact hDrawn
  | unreadRelay => exact hDrawn
  | relayedTold => exact hDrawn
  | sentMatched =>
      apply hDrawn.of_within
      · simp [remove, cancel]
      · exact (within_cancelRelay _ _).trans
          ((Store.Within.cancel _ _).trans
            ((Store.Within.remove _ _ _).trans
              (Store.Within.remove _ _ _)))
  | sentWaits =>
      apply hStored.of_within
      · simp
      · exact (within_cancelRelay _ _).trans
          ((within_dropRelay _ _ _).trans
            (within_cancelOld _ _))
  | receivedMatched =>
      exact hDrawn.of_within rfl
        ((Store.Within.cancel _ _).trans
          (Store.Within.remove _ _ _))
  | receivedWaits =>
      exact hStored.of_within (by simp) (within_cancelOld _ _)
  | relayedWaits =>
      exact hStored.of_within (by simp) (within_cancelOld _ _)
  | overwritten =>
      exact hStored.of_within rfl (Store.Within.cancel _ _)

------------------------------------------------------------
-- Every history
------------------------------------------------------------

namespace Reachable

/- A matcher that begins on the empty store has no task. -/
theorem task_begin
    (expiry : Nat)
    (tags : TagSource)
    (task : String) :
    TaskQueue.text? task (begin expiry tags .empty).store
      = none := by
  rfl

theorem paired_start
    (expiry : Nat)
    (tags : TagSource) :
    (begin expiry tags .empty).store.Paired := by
  constructor
  · intro n key text hText
    rw [text?_begin] at hText
    cases hText
  · intro task text hText
    rw [task_begin] at hText
    cases hText

theorem drawn_start
    (expiry : Nat)
    (tags : TagSource) :
    (begin expiry tags .empty).Drawn tags := by
  constructor
  · rfl
  · intro task text hText
    rw [task_begin] at hText
    cases hText

/-
  In every history of storable events entries and tasks are
  paired, and the queue holds tags that have been drawn.
-/
theorem paired_drawn
    {expiry : Nat}
    (hTags : tags.NeverRepeats)
    (hReachable : Reachable Event.Storable expiry tags m) :
    m.store.Paired ∧ m.Drawn tags := by
  induction hReachable with
  | start =>
      exact ⟨paired_start expiry tags, drawn_start expiry tags⟩
  | @step m next hBefore hNext ih =>
      rcases ih with ⟨hPaired, hDrawn⟩
      rcases admits_cases hNext with
        ⟨now, e, hEvent, hStorable⟩ | hRemoval
      · subst hEvent
        rcases m.handle_cases now e with
          ⟨reason, hHandle⟩
            | ⟨key, reply, after, -, hHandle, hMeeting⟩
        · rw [move, hHandle]
          exact ⟨hPaired, hDrawn⟩
        · rw [move, hHandle]
          exact ⟨hMeeting.paired hStorable
              (hDrawn.fresh hTags now) hPaired,
            hMeeting.drawn hDrawn⟩
      · exact ⟨paired_move hRemoval hPaired,
          hDrawn.of_within (m.tags_move hRemoval)
            (m.within_move hRemoval)⟩

end Reachable

namespace Reachable

/-
  In every history of storable events, the entries stand one
  to one with the tasks that their records name, no task is
  left over, and each is a sweep of its entry.
-/
theorem bijOn_expiryTask
    {expiry : Nat}
    {tags : TagSource}
    {m : Matcher}
    (hTags : tags.NeverRepeats)
    (hReachable : Reachable Event.Storable expiry tags m) :
    Set.BijOn (fun p => Pending.expiryTask? p.1 p.2 m.store)
        (Pending.keys m.store)
        (some '' TaskQueue.keys m.store)
      ∧ ∀ n key, (n, key) ∈ Pending.keys m.store →
        ∃ task text,
          Pending.expiryTask? n key m.store = some task
            ∧ TaskQueue.text? task m.store = some text
            ∧ decodeStored StoredTask text
              = .ok
                ⟨sweepType,
                  (SweepPayload.mk n.name key).json⟩ := by
  have hPaired := (paired_drawn hTags hReachable).1
  refine ⟨hPaired.bijOn, ?_⟩
  intro n key hMem
  rcases Option.ne_none_iff_exists'.mp hMem with ⟨text, hText⟩
  rcases hPaired.entry n key text hText with
    ⟨task, hNames, hTask⟩
  exact ⟨task, _, hNames.expiryTask?_eq, hTask,
    decodeStored_sweepText n key⟩

/-
  An event that was not sent, and whose counterpart is
  missing, is stored with a fresh task, whatever was stored
  before. Only its own entry changes.
-/
theorem move_of_alone
    {expiry : Nat}
    {tags : TagSource}
    {m : Matcher}
    {key : String}
    {e : Event}
    (now : Readings)
    (hTags : tags.NeverRepeats)
    (hReachable : Reachable Event.Storable expiry tags m)
    (hKey : e.key = .ok key)
    (hName : e.nameSpace ≠ .awaitingDestination)
    (hAlone : Pending.text? e.counterpart key m.store = none) :
    (∀ n other,
        Pending.text? n other (m.move (.event now e)).store
          = if n = e.nameSpace ∧ other = key then
              some (m.newText now key e)
            else Pending.text? n other m.store)
      ∧ (m.move (.event now e)).tags = m.tags.draw
      ∧ (m.move (.event now e)).expiry = m.expiry := by
  rcases (paired_drawn hTags hReachable).1.exists_record?
      e.nameSpace key with ⟨old, hOld⟩
  have hMoved :
      m.move (.event now e)
        = (m.stored now key e).cancelOld old := by
    rw [move, handle_of_key now hReachable.stopped_eq hKey]
    exact
      ((m.meeting_meet now key e).of_alone hName
        (Pending.record?_of_text?_eq_none hAlone) hOld).2
  rw [hMoved]
  refine ⟨?_, ?_, ?_⟩
  · intro n other
    rw [text?_cancelOld, text?_stored]
  · rw [tags_cancelOld]
    rfl
  · rw [expiry_cancelOld]
    rfl

/-
  A relay is seen twice, and then the message where it
  arrives.
-/
def seenTwice : Matcher :=
  (((begin 1000 .counted .empty).move
    (.event (.still ⟨0⟩) (.relayed seenRelay))).move
    (.event (.still ⟨500000000⟩) (.relayed seenRelay))).move
    (.event (.still ⟨700000000⟩) (.received seenReceived))

theorem reachable_seenTwice :
    Reachable Event.Storable 1000 .counted seenTwice :=
  .step _
    (.step _ (.step _ .start Event.storable_seenRelay)
      Event.storable_seenRelay)
    Event.storable_seenReceived

/- The second relay has replaced the first. -/
theorem text?_seenTwice
    (n : Namespace)
    (key : String) :
    Pending.text? n key seenTwice.store
      = if n = .awaitingOrigin ∧ key = seenKey then
          some
            ((Event.received seenReceived).recordText
              (taskKey ⟨1700000000⟩ (countedTag 2)) 700)
        else if n = .relayed ∧ key = seenKey then
          some
            ((Event.relayed seenRelay).recordText
              (taskKey ⟨1500000000⟩ (countedTag 1)) 500)
        else none := by
  have hTags := TagSource.neverRepeats_counted
  have hSame : (Event.received seenReceived).key = .ok seenKey :=
    rfl
  have hOrigin :
      (Event.received seenReceived).nameSpace = .awaitingOrigin :=
    rfl
  have hRelayed :
      (Event.relayed seenRelay).nameSpace = .relayed :=
    rfl
  have hStart :
      Reachable Event.Storable 1000 .counted
        (begin 1000 .counted .empty) :=
    .start
  -- None of the three finds the message where it has left.
  rcases move_of_alone (.still ⟨0⟩) hTags hStart key_seenRelay
      (by decide) (text?_begin _ _ _ _) with
    ⟨hFirst, hTags₁, hExpiry₁⟩
  have hReachable₁ :=
    hStart.step (.event (.still ⟨0⟩) (.relayed seenRelay))
      Event.storable_seenRelay
  rcases move_of_alone (.still ⟨500000000⟩) hTags
      hReachable₁ key_seenRelay (by decide)
      (by rw [hFirst, text?_begin]; rfl) with
    ⟨hSecond, hTags₂, hExpiry₂⟩
  rw [hTags₁] at hTags₂
  rw [hExpiry₁] at hExpiry₂
  have hReachable₂ :=
    hReachable₁.step
      (.event (.still ⟨500000000⟩) (.relayed seenRelay))
      Event.storable_seenRelay
  rcases move_of_alone (.still ⟨700000000⟩) hTags
      hReachable₂ hSame (by decide)
      (by rw [hSecond, hFirst, text?_begin]; rfl) with
    ⟨hThird, -, -⟩
  rw [seenTwice, hThird, hSecond, hFirst, text?_begin]
  rw [newText, newText, key_expiryTask, key_expiryTask]
  rw [freshTask, freshTask, hTags₁, hTags₂, hExpiry₁, hExpiry₂]
  rw [hOrigin, hRelayed]
  by_cases hReceived : n = .awaitingOrigin ∧ key = seenKey
  · rw [if_pos hReceived, if_pos hReceived]
    rfl
  · rw [if_neg hReceived, if_neg hReceived]
    by_cases hRelay : n = .relayed ∧ key = seenKey
    · rw [if_pos hRelay, if_pos hRelay]
      rfl
    · rw [if_neg hRelay, if_neg hRelay, if_neg hRelay]

/- The second relay and the message have one task each. -/
theorem bijOn_expiryTask_seenTwice :
    Pending.keys seenTwice.store
        = {(.relayed, seenKey), (.awaitingOrigin, seenKey)}
      ∧ Pending.expiryTask? .relayed seenKey seenTwice.store
        = some (taskKey ⟨1500000000⟩ (countedTag 1))
      ∧ Pending.expiryTask? .awaitingOrigin seenKey
          seenTwice.store
        = some (taskKey ⟨1700000000⟩ (countedTag 2))
      ∧ TaskQueue.keys seenTwice.store
        = {taskKey ⟨1500000000⟩ (countedTag 1),
          taskKey ⟨1700000000⟩ (countedTag 2)}
      ∧ Set.BijOn
        (fun p => Pending.expiryTask? p.1 p.2 seenTwice.store)
        (Pending.keys seenTwice.store)
        (some '' TaskQueue.keys seenTwice.store) := by
  have hRelay :
      Pending.expiryTask? .relayed seenKey seenTwice.store
        = some (taskKey ⟨1500000000⟩ (countedTag 1)) :=
    Pending.Names.expiryTask?_eq
      ⟨_, 500, Event.storable_seenRelay, rfl, by
        rw [text?_seenTwice, if_neg (by simp),
          if_pos ⟨rfl, rfl⟩]⟩
  have hReceived :
      Pending.expiryTask? .awaitingOrigin seenKey
          seenTwice.store
        = some (taskKey ⟨1700000000⟩ (countedTag 2)) :=
    Pending.Names.expiryTask?_eq
      ⟨_, 700, Event.storable_seenReceived, rfl, by
        rw [text?_seenTwice, if_pos ⟨rfl, rfl⟩]⟩
  have hKeys :
      Pending.keys seenTwice.store
        = {(.relayed, seenKey), (.awaitingOrigin, seenKey)} := by
    ext ⟨n, key⟩
    simp only [Pending.keys, Set.mem_ofPred_eq, text?_seenTwice,
      Set.mem_insert_iff, Set.mem_singleton_iff, Prod.mk.injEq]
    split
    · simp_all
    · split <;> simp_all
  have hBijOn :=
    (bijOn_expiryTask TagSource.neverRepeats_counted
      reachable_seenTwice).1
  -- The tasks are the ones that the two entries name.
  have hImage := hBijOn.image_eq
  rw [hKeys, Set.image_pair, hRelay, hReceived,
    ← Set.image_pair] at hImage
  exact
    ⟨hKeys, hRelay, hReceived,
      ((Option.some_injective String).image_injective
        hImage).symm, hBijOn⟩

end Reachable

end Matcher

end JourneyMatch
