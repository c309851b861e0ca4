import JourneyMatch.Matcher.Basic
import JourneyMatch.Proofs.Pending.Record

/-
  This file defines the changes of which every call of the
  matcher is made, and says what each of them does to the
  entries, the tasks and the rest of the matcher.

  Key definitions include:
    * `Matcher.remove`
    * `Matcher.expiryTask`
    * `Matcher.newText`
    * `Matcher.stored`
    * `Matcher.cancelOld`
-/

namespace JourneyMatch

namespace Matcher

------------------------------------------------------------
-- Changes of the matcher
------------------------------------------------------------

/- Removes an entry; its task stays. -/
def remove
    (n : Namespace)
    (key : String)
    (m : Matcher) : Matcher :=
  { m with store := Pending.remove n key m.store }

/- The task of an entry that is stored now. -/
def expiryTask
    (now : Readings)
    (n : Namespace)
    (key : String)
    (m : Matcher) : Task :=
  Janitor.task now.scheduled m.expiry m.tags.next
    ⟨n.name, key, none⟩

/- The text of the record of an event that is stored now. -/
def newText
    (now : Readings)
    (key : String)
    (e : Event)
    (m : Matcher) : String :=
  e.recordText (m.expiryTask now e.nameSpace key).key
    (Int64.ofInt now.stored.unixMillis)

/-
  An event stored under a key, with its task. What becomes
  of the task of an entry that was there is left open.
-/
def stored
    (now : Readings)
    (key : String)
    (e : Event)
    (m : Matcher) : Matcher :=
  { m with
    store :=
      Pending.write e.nameSpace key (m.newText now key e)
        (TaskQueue.schedule
          [m.expiryTask now e.nameSpace key] m.store)
    tags := m.tags.draw }

/- Cancels the task of an entry that was replaced. -/
def cancelOld
    (old : Option (PendingRecord Event))
    (m : Matcher) : Matcher :=
  match old with
  | none => m
  | some r => m.cancel r.expiryTask

------------------------------------------------------------
-- What the changes do to the store
------------------------------------------------------------

@[simp] theorem store_remove
    (n : Namespace)
    (key : String)
    (m : Matcher) :
    (m.remove n key).store = Pending.remove n key m.store :=
  rfl

@[simp] theorem store_cancel
    (task : String)
    (m : Matcher) :
    (m.cancel task).store = (TaskQueue.cancel task m.store).2 :=
  rfl

/- Storing an event changes the entry under its key alone. -/
@[simp] theorem text?_stored
    (now : Readings)
    (n : Namespace)
    (key other : String)
    (e : Event)
    (m : Matcher) :
    Pending.text? n other (m.stored now key e).store
      = if n = e.nameSpace ∧ other = key then
          some (m.newText now key e)
        else Pending.text? n other m.store := by
  simp [stored]

/- After an event was stored, an entry is old or its own. -/
theorem text?_stored_cases
    {now : Readings}
    {n : Namespace}
    {key other text : String}
    {e : Event}
    {m : Matcher}
    (hText :
      Pending.text? n other (m.stored now key e).store
        = some text) :
    Pending.text? n other m.store = some text
      ∨ (n = e.nameSpace ∧ other = key
        ∧ text = m.newText now key e) := by
  rw [text?_stored] at hText
  split at hText
  · rename_i hHere
    cases hText
    exact .inr ⟨hHere.1, hHere.2, rfl⟩
  · exact .inl hText

/- Storing an event schedules its task. -/
@[simp] theorem task_stored
    (now : Readings)
    (key task : String)
    (e : Event)
    (m : Matcher) :
    TaskQueue.text? task (m.stored now key e).store
      = if task = (m.expiryTask now e.nameSpace key).key then
          some
            (Wire.text
              (m.expiryTask now e.nameSpace key).stored)
        else TaskQueue.text? task m.store := by
  simp [stored]

/- Cancelling the task of a replaced entry keeps entries. -/
@[simp] theorem text?_cancelOld
    (n : Namespace)
    (key : String)
    (old : Option (PendingRecord Event))
    (m : Matcher) :
    Pending.text? n key (m.cancelOld old).store
      = Pending.text? n key m.store := by
  cases old <;> simp [cancelOld]

@[simp] theorem text?_cancelRelay
    (n : Namespace)
    (key : String)
    (relayed : Option (PendingRecord Relayed))
    (m : Matcher) :
    Pending.text? n key (m.cancelRelay relayed).store
      = Pending.text? n key m.store := by
  cases relayed <;> simp [cancelRelay]

/- Dropping a relay removes its entry, if there is one. -/
theorem dropRelay_eq
    (key : String)
    (relayed : Option (PendingRecord Relayed))
    (m : Matcher) :
    m.dropRelay key relayed
      = match relayed with
        | none => m
        | some _ => m.remove .relayed key := by
  cases relayed <;> rfl

@[simp] theorem task_dropRelay
    (key task : String)
    (relayed : Option (PendingRecord Relayed))
    (m : Matcher) :
    TaskQueue.text? task (m.dropRelay key relayed).store
      = TaskQueue.text? task m.store := by
  rw [dropRelay_eq]
  cases relayed <;> simp

------------------------------------------------------------
-- What the changes do to the rest
------------------------------------------------------------

@[simp] theorem stopped_cancelOld
    (old : Option (PendingRecord Event))
    (m : Matcher) :
    (m.cancelOld old).stopped = m.stopped := by
  cases old <;> rfl

@[simp] theorem stopped_cancelRelay
    (relayed : Option (PendingRecord Relayed))
    (m : Matcher) :
    (m.cancelRelay relayed).stopped = m.stopped := by
  cases relayed <;> rfl

@[simp] theorem stopped_dropRelay
    (key : String)
    (relayed : Option (PendingRecord Relayed))
    (m : Matcher) :
    (m.dropRelay key relayed).stopped = m.stopped := by
  cases relayed <;> rfl

@[simp] theorem expiry_cancelOld
    (old : Option (PendingRecord Event))
    (m : Matcher) :
    (m.cancelOld old).expiry = m.expiry := by
  cases old <;> rfl

@[simp] theorem expiry_cancelRelay
    (relayed : Option (PendingRecord Relayed))
    (m : Matcher) :
    (m.cancelRelay relayed).expiry = m.expiry := by
  cases relayed <;> rfl

@[simp] theorem expiry_dropRelay
    (key : String)
    (relayed : Option (PendingRecord Relayed))
    (m : Matcher) :
    (m.dropRelay key relayed).expiry = m.expiry := by
  cases relayed <;> rfl

@[simp] theorem tags_cancelOld
    (old : Option (PendingRecord Event))
    (m : Matcher) :
    (m.cancelOld old).tags = m.tags := by
  cases old <;> rfl

@[simp] theorem tags_cancelRelay
    (relayed : Option (PendingRecord Relayed))
    (m : Matcher) :
    (m.cancelRelay relayed).tags = m.tags := by
  cases relayed <;> rfl

@[simp] theorem tags_dropRelay
    (key : String)
    (relayed : Option (PendingRecord Relayed))
    (m : Matcher) :
    (m.dropRelay key relayed).tags = m.tags := by
  cases relayed <;> rfl

end Matcher

end JourneyMatch
