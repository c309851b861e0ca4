import JourneyMatch.Task.Basic

/-
  This file defines what becomes of due tasks. All tasks that
  are due are noted first. Each is then taken out of the
  queue and handed to the listener of its type; a task that
  is gone by then is passed over, and a task that fails does
  not stop the others.

  Key definitions include:
    * `Listener`
    * `Listeners`
    * `Firing`
    * `fireOne`
    * `fireAll`
    * `fireDue`
    * `FiringReport`

  Main statements:
    * `Listeners.find?_register`
-/

namespace JourneyMatch

------------------------------------------------------------
-- Listeners
------------------------------------------------------------

/-
  A listener handles a task, and may change the store. It
  tells whether it succeeded.
-/
abbrev Listener :=
  Task → Store → Bool × Store

/- The listeners by task type, the latest first. -/
abbrev Listeners :=
  List (String × Listener)

/- The listener of a task type: the latest one. -/
def Listeners.find?
    (listeners : Listeners)
    (type : String) : Option Listener :=
  listeners.lookup type

/- Registers a listener, in place of an earlier one. -/
def Listeners.register
    (listeners : Listeners)
    (type : String)
    (listener : Listener) : Listeners :=
  (type, listener) :: listeners

/- Before any is registered, no type has a listener. -/
theorem Listeners.find?_nil
    (type : String) :
    Listeners.find? [] type = none :=
  rfl

/-
  The listener that was registered last is the one of its
  type; the listeners of the other types are as before.
-/
theorem Listeners.find?_register
    (listeners : Listeners)
    (type other : String)
    (listener : Listener) :
    (listeners.register type listener).find? other
      = if other = type then some listener
        else listeners.find? other := by
  rw [register, find?, List.lookup_cons]
  by_cases hSame : other = type
  · rw [if_pos hSame, beq_iff_eq.mpr hSame]
  · rw [if_neg hSame, beq_eq_false_iff_ne.mpr hSame]
    rfl

------------------------------------------------------------
-- Firing
------------------------------------------------------------

/-
  What became of a task that was taken out of the queue. A
  stored text that does not decode has no task.
-/
structure Firing where
  key : String
  task : Option Task
  handled : Bool

/- Hands a task to the listener of its type, if any. -/
def dispatch
    (listeners : Listeners)
    (task : Task)
    (s : Store) : Bool × Store :=
  match listeners.find? task.type with
  | some listener => listener task s
  | none => (false, s)

/-
  Takes a task, as it was noted, out of the queue and
  dispatches it.
-/
def fireOne
    (listeners : Listeners)
    (key text : String)
    (s : Store) : Option Firing × Store :=
  match TaskQueue.cancel key s with
  | (false, s) => (none, s)
  | (true, s) =>
      match decodeStored StoredTask text with
      | .error _ => (some ⟨key, none, false⟩, s)
      | .ok stored =>
          let task := Task.ofStored key stored
          let (handled, s) := dispatch listeners task s
          (some ⟨key, some task, handled⟩, s)

/- Fires the noted tasks, one after the other. -/
def fireAll
    (listeners : Listeners) :
    List (String × String) → Store → List Firing × Store
  | [], s => ([], s)
  | (key, text) :: rest, s =>
      let (firing, s) := fireOne listeners key text s
      let (firings, s) := fireAll listeners rest s
      (firing.toList ++ firings, s)

/- Fires the tasks whose keys sort below an instant. -/
def fireDue
    (listeners : Listeners)
    (now : Instant)
    (s : Store) : List Firing × Store :=
  fireAll listeners
    ((TaskQueue.of s).before (dueBound now)) s

/- How many tasks succeeded, and how many failed. -/
structure FiringReport where
  fired : Nat
  failed : Nat
  deriving DecidableEq, Repr

/- The report of what became of tasks. -/
def FiringReport.of
    (firings : List Firing) : FiringReport :=
  { fired := firings.countP (·.handled)
    failed := firings.countP (!·.handled) }

end JourneyMatch
