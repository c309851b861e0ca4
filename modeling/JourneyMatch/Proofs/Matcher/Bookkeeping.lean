import JourneyMatch.Proofs.Matcher.Expiry
import JourneyMatch.Proofs.Matcher.Ledger
import JourneyMatch.Proofs.Store.Fired
import JourneyMatch.Proofs.Time.Timestamp

/-
  This file shows that a matcher keeps its ledger: each call
  gives the reply that the ledger gives, and leaves a matcher
  whose entries and tasks are what the ledger then holds. No
  event has to be storable for this. A task that an entry has
  left behind stays in the queue and does no harm.

  Key definitions include:
    * `Holding.Stands`
    * `Matcher.Shows`

  Main statements:
    * `Matcher.Meeting.shows`
    * `Matcher.Shows.handle`
    * `Matcher.Shows.clearKeys`
    * `Matcher.Shows.deletePending`
    * `Matcher.Shows.fireDue`
-/

namespace JourneyMatch

------------------------------------------------------------
-- Matchers and their ledgers
------------------------------------------------------------

/-
  Whether a matcher holds an event under a key: its record is
  the one of a task with a tag that has been drawn, which is
  in the queue if the holding says so.
-/
structure Holding.Stands
    (tags : TagSource)
    (m : Matcher)
    (n : Namespace)
    (key : String)
    (i : Nat)
    (h : Holding) : Prop where
  nameSpace : h.event.nameSpace = n
  ownKey : h.event.key = .ok key
  drawn : i < m.tags.drawn
  text :
    Pending.text? n key m.store
      = some
        (h.event.recordText (taskKey h.due (tags.tag i))
          h.storedAt)
  task :
    TaskQueue.text? (taskKey h.due (tags.tag i)) m.store
      = if h.scheduled then some (sweepText n key) else none

namespace Matcher

/- Whether a matcher holds what a ledger says. -/
structure Shows
    (tags : TagSource)
    (l : Ledger)
    (m : Matcher) : Prop where
  drawn : m.Drawn tags
  sweeps :
    ∀ task text,
      TaskQueue.text? task m.store = some text →
        ∃ n key, text = sweepText n key
  empty :
    ∀ n key, l key n = none → Pending.text? n key m.store = none
  held :
    ∀ n key h, l key n = some h → ∃ i, h.Stands tags m n key i

end Matcher

------------------------------------------------------------
-- Single holdings
------------------------------------------------------------

namespace Holding.Stands

variable {tags : TagSource}
variable {m after : Matcher}
variable {n o : Namespace}
variable {key other : String}
variable {i j : Nat}
variable {h g : Holding}

/- A holding is seen through its entry and its task. -/
theorem congr
    (hStands : h.Stands tags m n key i)
    (hDrawn : m.tags.drawn ≤ after.tags.drawn)
    (hText :
      Pending.text? n key after.store
        = Pending.text? n key m.store)
    (hTask :
      TaskQueue.text? (taskKey h.due (tags.tag i)) after.store
        = TaskQueue.text? (taskKey h.due (tags.tag i))
          m.store) :
    h.Stands tags after n key i :=
  { nameSpace := hStands.nameSpace
    ownKey := hStands.ownKey
    drawn := Nat.lt_of_lt_of_le hStands.drawn hDrawn
    text := hText.trans hStands.text
    task := hTask.trans hStands.task }

/-
  Cancelling the task of one holding leaves the task of any
  other as it was: the two have different tasks, or neither
  of them is in the queue.
-/
theorem task_cancel
    (hStands : h.Stands tags m n key i)
    (hOther : g.Stands tags m o other j)
    (hElse : ¬ (o = n ∧ other = key)) :
    TaskQueue.text? (taskKey g.due (tags.tag j))
        (TaskQueue.cancel (taskKey h.due (tags.tag i))
          m.store).2
      = TaskQueue.text? (taskKey g.due (tags.tag j))
        m.store := by
  rw [TaskQueue.text?_cancel]
  split
  · rename_i hSame
    have hTask := hOther.task
    rw [hSame, hStands.task] at hTask
    rw [hSame, hStands.task]
    cases hFirst : h.scheduled with
    | false => rfl
    | true =>
        rw [hFirst, if_pos rfl] at hTask
        cases hSecond : g.scheduled with
        | false =>
            rw [hSecond, if_neg Bool.false_ne_true] at hTask
            cases hTask
        | true =>
            rw [hSecond, if_pos rfl] at hTask
            rcases sweepText_injective
                (Option.some.inj hTask) with
              ⟨hName, hKey⟩
            exact absurd ⟨hName.symm, hKey.symm⟩ hElse
  · rfl

/- What is read of the entry of a holding. -/
theorem record?_eq
    (hStands : h.Stands tags m n key i) :
    Pending.record? n key m.store
      = h.event.reread.map fun x =>
        some ⟨x, taskKey h.due (tags.tag i), h.storedAt⟩ := by
  rw [Pending.record?, hStands.text]
  dsimp only
  rw [← hStands.nameSpace, Event.decode_recordText]
  cases h.event.reread <;> rfl

/- What is read of it without the form of its message. -/
theorem getJson_eq
    (hStands : h.Stands tags m n key i) :
    (Pending.level n m.store).get (PendingRecord Json) key
      = match Wire.reread 126 h.event.json with
        | .ok x =>
            .ok
              (some ⟨x, taskKey h.due (tags.tag i), h.storedAt⟩)
        | .error cause => .error (.codec cause) := by
  change
    decodeStored? (PendingRecord Json)
        (Pending.text? n key m.store) = _
  rw [hStands.text]
  change (decodeStored (PendingRecord Json) _).map some = _
  rw [Event.decodeJson_recordText]
  cases Wire.reread 126 h.event.json <;> rfl

/-
  Among the tasks below a bound is one that may remove the
  entry, just if the holding has expired.
-/
theorem any_before_eq
    (hStands : h.Stands tags m n key i)
    (now : Instant) :
    (((TaskQueue.of m.store).before (dueBound now)).any
        fun entry =>
          entry.2 = sweepText n key
            && sweptBy entry.1
              (h.event.recordText (taskKey h.due (tags.tag i))
                h.storedAt))
      = h.expires now := by
  have hBound :=
    taskKey_lt_dueBound_congr h.due now (tags.tag i) ""
  have hAny :=
    TaskQueue.any_before_iff
      (fun task =>
        sweptBy_recordText h.event (taskKey h.due (tags.tag i))
          task h.storedAt)
      n key (dueBound now) m.store
  rw [Bool.eq_iff_iff, hAny, hStands.task, hBound,
    Holding.expires, Bool.and_eq_true, decide_eq_true_iff]
  cases h.scheduled <;> simp

/- The task of a holding that has not expired is kept. -/
theorem task_fired
    {s : Store}
    (hStands : h.Stands tags m n key i)
    {now : Instant}
    (hFired :
      m.store.Fired
        ((TaskQueue.of m.store).before (dueBound now)) s)
    (hKept : h.expires now = false) :
    TaskQueue.text? (taskKey h.due (tags.tag i)) s
      = TaskQueue.text? (taskKey h.due (tags.tag i))
        m.store := by
  rw [hFired.task]
  split
  · rename_i hMem
    rcases List.mem_map.mp hMem with
      ⟨⟨task, text⟩, hEntry, hTask⟩
    rcases List.mem_filter.mp hEntry with ⟨hThere, hBelow⟩
    subst hTask
    have hText := hStands.task
    rw [TaskQueue.text?,
      SortedMap.mem_entries_iff.mp hThere] at hText
    rw [Holding.expires, ← decide_eq_decide.mpr
      (taskKey_lt_dueBound_congr h.due now (tags.tag i) ""),
      hBelow, Bool.and_true] at hKept
    rw [hKept] at hText
    cases hText
  · rfl

end Holding.Stands

namespace Matcher

namespace Shows

variable {tags : TagSource}
variable {l : Ledger}
variable {m after : Matcher}
variable {n : Namespace}
variable {key : String}
variable {i : Nat}
variable {h : Holding}

/- The ledger reads the events that the matcher reads. -/
theorem event?_eq
    (hShows : m.Shows tags l)
    (n : Namespace)
    (key : String) :
    (l key).event? n = Pending.message? n key m.store := by
  unfold Holdings.event? Pending.message?
  cases hHeld : l key n with
  | none =>
      rw [Pending.record?_of_text?_eq_none
        (hShows.empty n key hHeld)]
      rfl
  | some h =>
      rcases hShows.held n key h hHeld with ⟨i, hStands⟩
      rw [hStands.record?_eq]
      dsimp only
      cases h.event.reread <;> rfl

/- A key without a text holds nothing. -/
theorem none_of_text?
    (hShows : m.Shows tags l)
    (hText : Pending.text? n key m.store = none) :
    l key n = none := by
  cases hHeld : l key n with
  | none => rfl
  | some h =>
      rcases hShows.held n key h hHeld with ⟨i, hStands⟩
      rw [hStands.text] at hText
      cases hText

/- A record that is read is that of a holding. -/
theorem stands_of_record?
    {r : PendingRecord Event}
    (hShows : m.Shows tags l)
    (hRecord : Pending.record? n key m.store = .ok (some r)) :
    ∃ h i,
      l key n = some h
        ∧ h.Stands tags m n key i
        ∧ r.expiryTask = taskKey h.due (tags.tag i) := by
  cases hHeld : l key n with
  | none =>
      rw [Pending.record?_of_text?_eq_none
        (hShows.empty n key hHeld)] at hRecord
      cases hRecord
  | some h =>
      rcases hShows.held n key h hHeld with ⟨i, hStands⟩
      refine ⟨h, i, rfl, hStands, ?_⟩
      rw [hStands.record?_eq] at hRecord
      cases hReread : h.event.reread with
      | error cause =>
          rw [hReread] at hRecord
          cases hRecord
      | ok x =>
          rw [hReread] at hRecord
          cases hRecord
          rfl

/- A matcher that begins on the empty store holds nothing. -/
theorem start
    (expiry : Nat)
    (tags : TagSource) :
    (begin expiry tags .empty).Shows tags .empty := by
  constructor
  · exact Reachable.drawn_start expiry tags
  · intro task text hText
    rw [Reachable.task_begin] at hText
    cases hText
  · intro n key _
    exact Reachable.text?_begin expiry tags n key
  · intro n key h hHeld
    cases hHeld

/- A ledger is seen through the entries and the tasks alone. -/
theorem of_agree
    (hShows : m.Shows tags l)
    (hTags : after.tags = m.tags)
    (hAgree : m.store.Agree after.store) :
    after.Shows tags l := by
  constructor
  · exact hShows.drawn.of_within hTags
      ⟨fun n key text hText =>
          (hAgree.entries n key).trans hText,
        fun task text hText =>
          (hAgree.tasks task).trans hText⟩
  · intro task text hText
    exact hShows.sweeps task text
      ((hAgree.tasks task).trans hText)
  · intro n key hHeld
    rw [← hAgree.entries, hShows.empty n key hHeld]
  · intro n key h hHeld
    rcases hShows.held n key h hHeld with ⟨i, hStands⟩
    exact ⟨i, hStands.congr
      (Nat.le_of_eq (congrArg TagSource.drawn hTags.symm))
      (hAgree.entries n key).symm (hAgree.tasks _).symm⟩

/-
  A matcher in which one entry has changed shows a ledger
  with one change, if the tasks of all other holdings are as
  they were.
-/
theorem change
    {new : Option Holding}
    (hShows : m.Shows tags l)
    (hDrawn : after.Drawn tags)
    (hCount : m.tags.drawn ≤ after.tags.drawn)
    (hSweeps :
      ∀ task text,
        TaskQueue.text? task after.store = some text →
          ∃ n key, text = sweepText n key)
    (hEntries :
      ∀ o other, ¬ (o = n ∧ other = key) →
        Pending.text? o other after.store
          = Pending.text? o other m.store)
    (hTasks :
      ∀ o other g j, ¬ (o = n ∧ other = key) →
        Holding.Stands tags m o other j g →
          TaskQueue.text? (taskKey g.due (tags.tag j))
              after.store
            = TaskQueue.text? (taskKey g.due (tags.tag j))
              m.store)
    (hEmpty :
      new = none → Pending.text? n key after.store = none)
    (hNew :
      ∀ h, new = some h → ∃ i, h.Stands tags after n key i) :
    after.Shows tags (l.set n key new) := by
  constructor
  · exact hDrawn
  · exact hSweeps
  · intro o other hNone
    rw [Ledger.set_apply] at hNone
    split at hNone
    · rename_i hHere
      rw [hHere.1, hHere.2]
      exact hEmpty hNone
    · rename_i hElse
      rw [hEntries o other hElse]
      exact hShows.empty o other hNone
  · intro o other g hHeld
    rw [Ledger.set_apply] at hHeld
    split at hHeld
    · rename_i hHere
      rw [hHere.1, hHere.2]
      exact hNew g hHeld
    · rename_i hElse
      rcases hShows.held o other g hHeld with ⟨j, hStands⟩
      exact ⟨j, hStands.congr hCount (hEntries o other hElse)
        (hTasks o other g j hElse hStands)⟩

/- Every entry is the record of an event of its key. -/
theorem authored
    (hShows : m.Shows tags l) :
    m.Authored fun _ => True := by
  intro n key text hText
  cases hHeld : l key n with
  | none =>
      rw [hShows.empty n key hHeld] at hText
      cases hText
  | some h =>
      rcases hShows.held n key h hHeld with ⟨i, hStands⟩
      rw [hStands.text] at hText
      cases hText
      exact ⟨h.event, _, _, trivial, hStands.nameSpace,
        hStands.ownKey, rfl⟩

/- A key has a text just if something is held there. -/
theorem text?_isSome
    (hShows : m.Shows tags l)
    (n : Namespace)
    (key : String) :
    (Pending.text? n key m.store).isSome = (l key n).isSome := by
  cases hHeld : l key n with
  | none =>
      rw [hShows.empty n key hHeld]
      rfl
  | some h =>
      rcases hShows.held n key h hHeld with ⟨i, hStands⟩
      rw [hStands.text]
      rfl

/- A holding is removed together with its task. -/
theorem taken
    (hShows : m.Shows tags l)
    (hStands : h.Stands tags m n key i) :
    ((m.remove n key).cancel
        (taskKey h.due (tags.tag i))).Shows tags
      (l.set n key none) := by
  have hWithin :
      ((m.remove n key).cancel
        (taskKey h.due (tags.tag i))).store.Within m.store :=
    (Store.Within.cancel _ _).trans (Store.Within.remove n key _)
  apply hShows.change
  · exact hShows.drawn.of_within rfl hWithin
  · exact Nat.le_refl _
  · intro task text hText
    exact hShows.sweeps task text (hWithin.tasks task text hText)
  · intro o other hElse
    simp [hElse]
  · intro o other g j hElse hOther
    have hKept := hStands.task_cancel hOther hElse
    rw [TaskQueue.text?_cancel] at hKept
    rw [store_cancel, TaskQueue.text?_cancel, store_remove,
      TaskQueue.text?_remove, hKept]
  · intro _
    simp
  · intro g hNone
    cases hNone

end Shows

------------------------------------------------------------
-- Storing
------------------------------------------------------------

variable {tags : TagSource}
variable {l : Ledger}
variable {m after : Matcher}
variable {n : Namespace}
variable {key : String}
variable {e : Event}

/- The fresh task is none that a holding names. -/
theorem Drawn.freshTask_ne
    {h : Holding}
    {i : Nat}
    (hDrawn : m.Drawn tags)
    (hTags : tags.NeverRepeats)
    (now : Readings)
    (hStands : h.Stands tags m n key i) :
    taskKey h.due (tags.tag i) ≠ m.freshTask now := by
  intro hSame
  rw [freshTask, TagSource.next, hDrawn.tag] at hSame
  have hIndex := hTags _ _ _ _ hSame
  have hBefore := hStands.drawn
  omega

/- What an event stands for once it has been stored. -/
theorem Drawn.stands_stored
    {now : Readings}
    {scheduled : Bool}
    (hDrawn : m.Drawn tags)
    (hKey : e.key = .ok key)
    (hCount : after.tags = m.tags.draw)
    (hText :
      Pending.text? e.nameSpace key after.store
        = some (m.newText now key e))
    (hTask :
      TaskQueue.text? (m.freshTask now) after.store
        = if scheduled then some (sweepText e.nameSpace key)
          else none) :
    (Holding.new now m.expiry e scheduled).Stands tags after
      e.nameSpace key m.tags.drawn := by
  have hFresh :
      taskKey (Janitor.due now.scheduled m.expiry)
          (tags.tag m.tags.drawn)
        = m.freshTask now := by
    rw [freshTask, TagSource.next, hDrawn.tag]
  constructor
  · rfl
  · exact hKey
  · rw [hCount]
    exact Nat.lt_succ_self _
  · rw [hText, newText, key_expiryTask, Holding.new, hFresh]
  · rw [Holding.new, hFresh, hTask]

namespace Shows

/-
  An event is stored, and the task of the holding before it,
  if there was one, is cancelled.
-/
theorem stored
    {old : Option (PendingRecord Event)}
    (hShows : m.Shows tags l)
    (hTags : tags.NeverRepeats)
    (hKey : e.key = .ok key)
    (now : Readings)
    (hOld :
      Pending.record? e.nameSpace key m.store = .ok old) :
    ((m.stored now key e).cancelOld old).Shows tags
      (l.set e.nameSpace key
        (some (.new now m.expiry e true))) := by
  have hWithin :=
    within_cancelOld old (m.stored now key e)
  have hSweep :
      Wire.text (m.expiryTask now e.nameSpace key).stored
        = sweepText e.nameSpace key :=
    text_expiryTask now e.nameSpace key m
  -- The task that is cancelled is that of the entry before.
  have hCancelled :
      ∀ r, old = some r →
        ∃ (h : Holding) (i : Nat),
          h.Stands tags m e.nameSpace key i
            ∧ r.expiryTask = taskKey h.due (tags.tag i) := by
    intro r hSome
    rw [hSome] at hOld
    rcases hShows.stands_of_record? hOld with
      ⟨h, i, -, hStands, hTask⟩
    exact ⟨h, i, hStands, hTask⟩
  apply hShows.change
  · exact (hShows.drawn.stored now key e).of_within
      (tags_cancelOld _ _) hWithin
  · rw [tags_cancelOld]
    exact Nat.le_succ _
  · intro task text hText
    have hThere := hWithin.tasks task text hText
    rw [task_stored, hSweep] at hThere
    split at hThere
    · cases hThere
      exact ⟨_, _, rfl⟩
    · exact hShows.sweeps task text hThere
  · intro o other hElse
    rw [text?_cancelOld, text?_stored, if_neg hElse]
  · intro o other g j hElse hOther
    have hNe := hShows.drawn.freshTask_ne hTags now hOther
    cases hCase : old with
    | none =>
        rw [cancelOld, task_stored, key_expiryTask, if_neg hNe]
    | some r =>
        rcases hCancelled r hCase with ⟨h, i, hStands, hTask⟩
        have hKept := hStands.task_cancel hOther hElse
        rw [TaskQueue.text?_cancel] at hKept
        rw [cancelOld, store_cancel, TaskQueue.text?_cancel,
          task_stored, key_expiryTask, if_neg hNe, hTask, hKept]
  · intro hNone
    cases hNone
  · intro g hSome
    cases hSome
    refine ⟨m.tags.drawn, hShows.drawn.stands_stored hKey
      (tags_cancelOld _ _) ?_ ?_⟩
    · simp
    · cases hCase : old with
      | none =>
          rw [cancelOld, task_stored, key_expiryTask,
            if_pos rfl, hSweep, if_pos rfl]
      | some r =>
          rcases hCancelled r hCase with ⟨h, i, hStands, hTask⟩
          have hNe := hShows.drawn.freshTask_ne hTags now hStands
          rw [cancelOld, store_cancel, TaskQueue.text?_cancel,
            task_stored, key_expiryTask, hTask,
            if_neg (Ne.symm hNe), if_pos rfl, hSweep, if_pos rfl]

/-
  An event is stored over an entry that is not read, whose
  task stays in the queue; its own is cancelled at once.
-/
theorem overwritten
    (hShows : m.Shows tags l)
    (hTags : tags.NeverRepeats)
    (hKey : e.key = .ok key)
    (now : Readings) :
    ((m.stored now key e).cancel (m.freshTask now)).Shows tags
      (l.set e.nameSpace key
        (some (.new now m.expiry e false))) := by
  have hTask :
      ∀ task,
        TaskQueue.text? task
            ((m.stored now key e).cancel
              (m.freshTask now)).store
          = if task = m.freshTask now then none
            else TaskQueue.text? task m.store := by
    intro task
    rw [store_cancel, TaskQueue.text?_cancel, task_stored,
      key_expiryTask]
    split <;> rfl
  apply hShows.change
  · exact (hShows.drawn.stored now key e).of_within rfl
      (Store.Within.cancel _ _)
  · exact Nat.le_succ _
  · intro task text hText
    rw [hTask] at hText
    split at hText
    · cases hText
    · exact hShows.sweeps task text hText
  · intro o other hElse
    rw [store_cancel, Pending.text?_cancel, text?_stored,
      if_neg hElse]
  · intro o other g j hElse hOther
    rw [hTask, if_neg
      (hShows.drawn.freshTask_ne hTags now hOther)]
  · intro hNone
    cases hNone
  · intro g hSome
    cases hSome
    refine ⟨m.tags.drawn, hShows.drawn.stands_stored hKey
      rfl ?_ ?_⟩
    · simp
    · rw [hTask, if_pos rfl]
      rfl

/- A relay that has been told is dropped. -/
theorem dropRelay
    {relayed : Option (PendingRecord Relayed)}
    (hShows : m.Shows tags l)
    (hRelayed :
      Pending.record? .relayed key m.store
        = .ok (relayed.map (·.map .relayed))) :
    ((m.dropRelay key relayed).cancelRelay relayed).Shows tags
      (l.set .relayed key none) := by
  cases relayed with
  | none =>
      have hNone :=
        hShows.none_of_text?
          (Pending.text?_eq_none_of_record? hRelayed)
      rwa [Ledger.set_eq_self hNone]
  | some r =>
      rw [Option.map_some] at hRelayed
      rcases hShows.stands_of_record? hRelayed with
        ⟨h, i, -, hStands, hTask⟩
      rw [PendingRecord.expiryTask_map] at hTask
      rw [dropRelay_eq, cancelRelay, hTask]
      exact hShows.taken hStands

end Shows

------------------------------------------------------------
-- Meetings
------------------------------------------------------------

/- The ledger reads what the matcher reads. -/
theorem Shows.event?_of_record?
    {found : Except StoreError (Option (PendingRecord Event))}
    (hShows : m.Shows tags l)
    (hRecord : Pending.record? n key m.store = found) :
    (l key).event? n
      = found.map (Option.map PendingRecord.message) := by
  rw [hShows.event?_eq, Pending.message?, hRecord]

/- What a relay tells does not depend on its record. -/
theorem relayNotices_map
    (message : Sent)
    (relayed : Option (PendingRecord Relayed)) :
    relayNotices message
        ((relayed.map (·.map .relayed)).map
          PendingRecord.message)
      = relayNotice message relayed := by
  cases relayed <;> rfl

/-
  A meeting gives the reply of the ledger and leaves what the
  ledger then holds.
-/
theorem Meeting.shows
    {now : Readings}
    {reply : Reply}
    (hMeeting : Meeting now key m e reply after)
    (hShows : m.Shows tags l)
    (hTags : tags.NeverRepeats)
    (hKey : e.key = .ok key) :
    reply = (l.meet now m.expiry key e).1
      ∧ after.Shows tags (l.meet now m.expiry key e).2 := by
  have hSame :
      m.Shows tags (Function.update l key (l key)) := by
    rwa [Function.update_eq_self]
  cases hMeeting with
  | unread hRead =>
      rw [Ledger.meet_eq (Holdings.meet_unread
        (hShows.event?_of_record? hRead))]
      exact ⟨rfl, hSame⟩
  | unreadRelay hInbound hRead =>
      rw [Ledger.meet_eq (Holdings.meet_unreadRelay
        (hShows.event?_of_record? hInbound)
        (hShows.event?_of_record? hRead))]
      exact ⟨rfl, hSame⟩
  | @sentMatched message inbound relayed hInbound hRelayed =>
      rw [Ledger.meet_eq (Holdings.meet_sentMatched
          (hShows.event?_of_record? hInbound)
          (hShows.event?_of_record? hRelayed)),
        relayNotices_map]
      refine ⟨rfl, ?_⟩
      rcases hShows.stands_of_record? hInbound with
        ⟨h, i, -, hStands, hTask⟩
      rw [PendingRecord.expiryTask_map] at hTask
      have hTaken := hShows.taken hStands
      rw [← hTask] at hTaken
      have hRest :
          Pending.record? .relayed key
              ((m.remove .awaitingOrigin key).cancel
                inbound.expiryTask).store
            = .ok (relayed.map (·.map .relayed)) := by
        rw [← hRelayed]
        apply Pending.record?_congr
        simp
      have hAfter :=
        (hTaken.dropRelay hRest).of_agree (by simp [remove, cancel])
          (agree_remove_dropRelay inbound.expiryTask hRelayed)
      rwa [Ledger.set_set] at hAfter
  | @sentWaits message relayed old hInbound hRelayed hOld =>
      rw [Ledger.meet_eq (Holdings.meet_sentWaits
          (hShows.event?_of_record? hInbound)
          (hShows.event?_of_record? hRelayed)
          (hShows.event?_of_record? hOld)),
        relayNotices_map]
      refine ⟨rfl, ?_⟩
      have hStored :=
        hShows.stored (e := .sent message) hTags hKey now hOld
      have hRest :
          Pending.record? .relayed key
              ((m.stored now key (.sent message)).cancelOld
                old).store
            = .ok (relayed.map (·.map .relayed)) := by
        rw [← hRelayed]
        apply Pending.record?_congr
        simp [Event.nameSpace]
      have hAfter := hStored.dropRelay hRest
      rwa [Ledger.set_set] at hAfter
  | receivedMatched hOutbound =>
      rw [Ledger.meet_eq (Holdings.meet_receivedMatched
        (hShows.event?_of_record? hOutbound))]
      refine ⟨rfl, ?_⟩
      rcases hShows.stands_of_record? hOutbound with
        ⟨h, i, -, hStands, hTask⟩
      rw [PendingRecord.expiryTask_map] at hTask
      rw [hTask]
      exact hShows.taken hStands
  | receivedWaits hOutbound hOld =>
      rw [Ledger.meet_eq (Holdings.meet_receivedWaits
        (hShows.event?_of_record? hOutbound)
        (hShows.event?_of_record? hOld)), ← Ledger.set_new]
      exact ⟨rfl, hShows.stored hTags hKey now hOld⟩
  | relayedTold hOutbound =>
      rw [Ledger.meet_eq (Holdings.meet_relayedTold
        (hShows.event?_of_record? hOutbound))]
      exact ⟨rfl, hSame⟩
  | relayedWaits hOutbound hOld =>
      rw [Ledger.meet_eq (Holdings.meet_relayedWaits
        (hShows.event?_of_record? hOutbound)
        (hShows.event?_of_record? hOld)), ← Ledger.set_new]
      exact ⟨rfl, hShows.stored hTags hKey now hOld⟩
  | overwritten hCounterpart hRelayed hOwn =>
      have hTold :
          e.nameSpace = .awaitingDestination →
            ∃ relayed,
              (l key).event? .relayed = .ok relayed := by
        intro hSent
        rcases hRelayed hSent with ⟨relayed, hRelay⟩
        exact ⟨_, hShows.event?_of_record? hRelay⟩
      rw [Ledger.meet_eq (Holdings.meet_overwritten
        (hShows.event?_of_record? hCounterpart) hTold
        (hShows.event?_of_record? hOwn)), ← Ledger.set_new]
      exact ⟨rfl, hShows.overwritten hTags hKey now⟩

/- A matcher that runs handles an event as its ledger does. -/
theorem Shows.handle
    (hShows : m.Shows tags l)
    (hTags : tags.NeverRepeats)
    (hRuns : m.stopped = false)
    (now : Readings)
    (e : Event) :
    (m.handle now e).1 = (l.handle now m.expiry e).1
      ∧ (m.handle now e).2.Shows tags
        (l.handle now m.expiry e).2 := by
  unfold Ledger.handle
  cases hKey : e.key with
  | error reason =>
      rw [handle_of_reason now hRuns hKey]
      exact ⟨rfl, hShows⟩
  | ok key =>
      rw [handle_of_key now hRuns hKey]
      exact (m.meeting_meet now key e).shows hShows hTags hKey

------------------------------------------------------------
-- Removals
------------------------------------------------------------

namespace Shows

/-
  A removal by a key finds nothing, or fails, or takes the
  entry out, as the ledger says.
-/
theorem take_cases
    (hShows : m.Shows tags l)
    (n : Namespace)
    (key : String) :
    ∃ result store,
      (m.store.onLevel n.name fun level =>
          level.take (PendingRecord Json) key)
        = (result, store)
      ∧ ((result = .ok none ∧ l.take n key = (.ok false, l))
        ∨ (∃ cause,
          result = .error cause
            ∧ l.take n key = (.error cause, l))
        ∨ ∃ r after,
          result = .ok (some r)
            ∧ l.take n key = (.ok true, after)
            ∧ Shows tags after
              (Matcher.cancel r.expiryTask
                { m with store })) := by
  rw [Pending.onLevel_take, Ledger.take_eq]
  cases hHeld : l key n with
  | none =>
      have hGet :
          (Pending.level n m.store).get (PendingRecord Json)
              key
            = decodeStored? (PendingRecord Json)
              (Pending.text? n key m.store) :=
        rfl
      rw [hGet, hShows.empty n key hHeld]
      exact ⟨_, _, rfl, .inl ⟨rfl, rfl⟩⟩
  | some h =>
      rcases hShows.held n key h hHeld with ⟨i, hStands⟩
      rw [hStands.getJson_eq]
      unfold Holding.release
      dsimp only
      cases Wire.reread 126 h.event.json with
      | error cause =>
          exact ⟨_, _, rfl, .inr (.inl ⟨_, rfl, rfl⟩)⟩
      | ok x =>
          exact ⟨_, _, rfl,
            .inr (.inr ⟨_, _, rfl, rfl, hShows.taken hStands⟩)⟩

/- Clearing keys gives the count of the ledger. -/
theorem clearKeys
    (hShows : m.Shows tags l)
    (keys : List (Namespace × String)) :
    (m.clearKeys keys).1 = (l.clearKeys keys).1
      ∧ (m.clearKeys keys).2.Shows tags
        (l.clearKeys keys).2 := by
  induction keys generalizing m l with
  | nil => exact ⟨rfl, hShows⟩
  | cons head rest ih =>
      rcases head with ⟨n, key⟩
      rcases hShows.take_cases n key with
        ⟨result, store, hTake, hCases⟩
      unfold Matcher.clearKeys Ledger.clearKeys
      rw [hTake]
      rcases hCases with
        ⟨hResult, hLedger⟩
          | ⟨cause, hResult, hLedger⟩
          | ⟨r, after, hResult, hLedger, hAfter⟩
      · rw [hResult, hLedger]
        exact ih hShows
      · rw [hResult, hLedger]
        exact ⟨rfl, hShows⟩
      · rw [hResult, hLedger]
        rcases ih hAfter with ⟨hCount, hRest⟩
        exact ⟨congrArg (Except.map (· + 1)) hCount, hRest⟩

/- So does deleting one entry. -/
theorem deletePending
    (hShows : m.Shows tags l)
    (n : Namespace)
    (key : String) :
    (Admin.deletePending n key m.store).1 = (l.take n key).1
      ∧ Shows tags (l.take n key).2
        { m with
          store := (Admin.deletePending n key m.store).2 } := by
  rcases hShows.take_cases n key with
    ⟨result, store, hTake, hCases⟩
  unfold Admin.deletePending
  rw [hTake]
  rcases hCases with
    ⟨hResult, hLedger⟩
      | ⟨cause, hResult, hLedger⟩
      | ⟨r, after, hResult, hLedger, hAfter⟩
  · rw [hResult, hLedger]
    exact ⟨rfl, hShows⟩
  · rw [hResult, hLedger]
    exact ⟨rfl, hShows⟩
  · rw [hResult, hLedger]
    exact ⟨rfl, hAfter⟩

/-
  A sweep removes the holdings that have expired. A task that
  an entry has left behind is fired as well, but may not
  remove the entry that has come after.
-/
theorem fireDue
    (hShows : m.Shows tags l)
    (now : Instant) :
    Shows tags (l.sweep now)
      { m with
        store :=
          (JourneyMatch.fireDue
            Service.firstListeners now m.store).2 } := by
  have hFired := Store.fired_fireDue now hShows.sweeps
  have hWithin := Store.Within.fireDue now m.store
  constructor
  · exact hShows.drawn.of_within rfl hWithin
  · intro task text hText
    exact hShows.sweeps task text (hWithin.tasks task text hText)
  · intro n key hNone
    rw [hFired.entry]
    cases hHeld : l key n with
    | none =>
        rw [hShows.empty n key hHeld]
        rfl
    | some h =>
        rcases hShows.held n key h hHeld with ⟨i, hStands⟩
        simp only [Ledger.sweep, Holdings.sweep, hHeld,
          Option.filter] at hNone
        rw [hStands.text, Option.filter,
          hStands.any_before_eq now]
        split at hNone
        · cases hNone
        · rename_i hGone
          rw [if_neg hGone]
  · intro n key h hHeld
    rcases Option.filter_eq_some_iff.mp hHeld with
      ⟨hThere, hKept⟩
    rw [Bool.not_eq_true'] at hKept
    rcases hShows.held n key h hThere with ⟨i, hStands⟩
    refine ⟨i, hStands.congr (Nat.le_refl _) ?_
      (hStands.task_fired hFired hKept)⟩
    dsimp only
    rw [hFired.entry, hStands.text, Option.filter,
      hStands.any_before_eq now, hKept]
    rfl

end Shows

end Matcher

end JourneyMatch
