import JourneyMatch.Pending
import JourneyMatch.Task.Basic

/-
  This file says what the operations on the store change and
  what they leave as it is. A store is seen through two
  views: the text under a key of a namespace, and the text
  under the key of a task. The namespaces and the queue are
  different levels, so that a change of one is not seen in
  another.

  Key definitions include:
    * `Pending.text?`
    * `Pending.write`
    * `Pending.remove`
    * `TaskQueue.text?`

  Main statements:
    * `Pending.text?_write`
    * `Pending.text?_remove`
    * `TaskQueue.text?_schedule_one`
    * `TaskQueue.text?_cancel`
-/

namespace JourneyMatch

------------------------------------------------------------
-- Names of levels
------------------------------------------------------------

/- Namespaces of one name are the same. -/
theorem Namespace.name_injective
    {m n : Namespace}
    (hName : m.name = n.name) :
    m = n := by
  cases m <;> cases n <;> first | rfl | exact absurd hName (by decide)

/- No namespace is the queue. -/
theorem Namespace.name_ne_queue
    (n : Namespace) :
    n.name ≠ TaskQueue.level := by
  cases n <;> decide

------------------------------------------------------------
-- The views
------------------------------------------------------------

/- The text under a key of a namespace. -/
def Pending.text?
    (n : Namespace)
    (key : String)
    (s : Store) : Option String :=
  (level n s).find? key

/- The text under the key of a task. -/
def TaskQueue.text?
    (key : String)
    (s : Store) : Option String :=
  (of s).find? key

/- Puts a text under a key of a namespace. -/
def Pending.write
    (n : Namespace)
    (key text : String)
    (s : Store) : Store :=
  s.setLevel n.name ((level n s).insert key text)

/- Removes a key from a namespace. -/
def Pending.remove
    (n : Namespace)
    (key : String)
    (s : Store) : Store :=
  s.setLevel n.name ((level n s).erase key)

------------------------------------------------------------
-- Changes of a namespace
------------------------------------------------------------

namespace Pending

/- A namespace after a level was put in its place. -/
theorem level_setLevel_name
    (m n : Namespace)
    (l : Level)
    (s : Store) :
    level m (s.setLevel n.name l)
      = if m = n then l else level m s := by
  unfold level
  rw [Store.level_setLevel]
  by_cases hEq : m = n
  · subst hEq
    simp
  · have hName : ¬ n.name = m.name := fun h =>
      hEq (Namespace.name_injective h).symm
    simp [hEq, hName]

/- A namespace does not see a change of the queue. -/
@[simp] theorem level_setLevel_queue
    (n : Namespace)
    (l : Level)
    (s : Store) :
    level n (s.setLevel TaskQueue.level l) = level n s := by
  unfold level
  rw [Store.level_setLevel,
    if_neg (Ne.symm n.name_ne_queue)]

/- What stands in a namespace after a text was written. -/
@[simp] theorem text?_write
    (m n : Namespace)
    (key other text : String)
    (s : Store) :
    text? m other (write n key text s)
      = if m = n ∧ other = key then some text
        else text? m other s := by
  unfold text? write
  rw [level_setLevel_name]
  by_cases hName : m = n
  · subst hName
    simp only [if_true, SortedMap.find?_insert, true_and]
    simp only [eq_comm]
  · simp [hName]

/- What stands in a namespace after a key was removed. -/
@[simp] theorem text?_remove
    (m n : Namespace)
    (key other : String)
    (s : Store) :
    text? m other (remove n key s)
      = if m = n ∧ other = key then none
        else text? m other s := by
  unfold text? remove
  rw [level_setLevel_name]
  by_cases hName : m = n
  · subst hName
    simp only [if_true, SortedMap.find?_erase, true_and]
    simp only [eq_comm]
  · simp [hName]

/- What is left after a removal was there before. -/
theorem text?_of_text?_remove
    {m n : Namespace}
    {key other text : String}
    {s : Store}
    (hText : text? m other (remove n key s) = some text) :
    text? m other s = some text := by
  rw [text?_remove] at hText
  split at hText
  · cases hText
  · exact hText

end Pending

------------------------------------------------------------
-- Changes of the queue
------------------------------------------------------------

namespace TaskQueue

/- The queue does not see a change of a namespace. -/
@[simp] theorem of_setLevel_name
    (n : Namespace)
    (l : Level)
    (s : Store) :
    of (s.setLevel n.name l) = of s := by
  unfold of
  rw [Store.level_setLevel, if_neg n.name_ne_queue]

@[simp] theorem of_setLevel_level
    (l : Level)
    (s : Store) :
    of (s.setLevel level l) = l := by
  unfold of
  rw [Store.level_setLevel, if_pos rfl]

@[simp] theorem text?_write
    (n : Namespace)
    (key text task : String)
    (s : Store) :
    text? task (Pending.write n key text s) = text? task s := by
  simp [text?, Pending.write]

@[simp] theorem text?_remove
    (n : Namespace)
    (key task : String)
    (s : Store) :
    text? task (Pending.remove n key s) = text? task s := by
  simp [text?, Pending.remove]

/- What stands in the queue after a task was cancelled. -/
@[simp] theorem text?_cancel
    (key task : String)
    (s : Store) :
    text? task (cancel key s).2
      = if task = key then none else text? task s := by
  have hErase :
      of (cancel key s).2 = (of s).erase key := by
    simp [cancel, Store.onLevel, Level.delete, of]
  unfold text?
  rw [hErase, SortedMap.find?_erase]
  simp only [eq_comm]

/- What stands in the queue after a task was scheduled. -/
@[simp] theorem text?_schedule_one
    (t : Task)
    (task : String)
    (s : Store) :
    text? task (schedule [t] s)
      = if task = t.key then some (Wire.text t.stored)
        else text? task s := by
  simp only [text?, schedule, of_setLevel_level,
    SortedMap.insertAll, List.map_cons, List.map_nil,
    List.foldl_cons, List.foldl_nil, SortedMap.find?_insert]
  simp only [eq_comm]

/- Whether a cancelled task was there. -/
theorem cancel_fst
    (key : String)
    (s : Store) :
    (cancel key s).1 = (text? key s).isSome :=
  rfl

end TaskQueue

namespace Pending

/- A namespace does not see a task that is cancelled. -/
@[simp] theorem level_cancel
    (n : Namespace)
    (task : String)
    (s : Store) :
    level n (TaskQueue.cancel task s).2 = level n s := by
  simp [TaskQueue.cancel, Store.onLevel]

/- A namespace does not see a task that is scheduled. -/
@[simp] theorem level_schedule
    (n : Namespace)
    (tasks : List Task)
    (s : Store) :
    level n (TaskQueue.schedule tasks s) = level n s := by
  simp [TaskQueue.schedule]

@[simp] theorem text?_cancel
    (n : Namespace)
    (key task : String)
    (s : Store) :
    text? n key (TaskQueue.cancel task s).2
      = text? n key s := by
  simp [text?]

@[simp] theorem text?_schedule
    (n : Namespace)
    (key : String)
    (tasks : List Task)
    (s : Store) :
    text? n key (TaskQueue.schedule tasks s)
      = text? n key s := by
  simp [text?]

end Pending

end JourneyMatch
