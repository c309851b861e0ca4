import JourneyMatch.Store.Basic
import JourneyMatch.Task.Key

/-
  This file defines tasks and the queue that holds them: a
  level of the store whose keys sort by due time.

  Key definitions include:
    * `StoredTask`
    * `Task`
    * `TaskRequest`
    * `drawTasks`
    * `TaskQueue.level`
    * `TaskQueue.schedule`
    * `TaskQueue.cancel`
-/

namespace JourneyMatch

------------------------------------------------------------
-- Tasks
------------------------------------------------------------

/- What is stored under the key of a task. -/
structure StoredTask where
  type : String
  payload : Json

/- The fields of a stored task. -/
def StoredTask.fields : Fields :=
  .cons "type" .text .required <|
  .cons "payload" .free .blank .nil

instance : Wire StoredTask where
  shape := .record StoredTask.fields
  pack t := (t.type, t.payload, ())
  unpack
    | (type, payload, ()) => ⟨type, payload⟩
  unpack_pack _ := rfl

/- A task and its key. -/
structure Task where
  key : String
  type : String
  payload : Json

namespace Task

/- The stored part of a task. -/
def stored
    (t : Task) : StoredTask :=
  ⟨t.type, t.payload⟩

/- The task of a key and what is stored under it. -/
def ofStored
    (key : String)
    (s : StoredTask) : Task :=
  ⟨key, s.type, s.payload⟩

end Task

/- A task to schedule: when it is due and what it is. -/
structure TaskRequest where
  due : Instant
  type : String
  payload : Json

/- The task of a request, told apart by a tag. -/
def TaskRequest.task
    (tag : String)
    (r : TaskRequest) : Task :=
  { key := taskKey r.due tag
    type := r.type
    payload := r.payload }

/- The tasks of requests, each with a fresh tag. -/
def drawTasks :
    List TaskRequest → TagSource → List Task × TagSource
  | [], tags => ([], tags)
  | r :: rest, tags =>
      let (others, last) := drawTasks rest tags.draw
      (r.task tags.next :: others, last)

------------------------------------------------------------
-- The queue
------------------------------------------------------------

namespace TaskQueue

/- The level that holds the tasks. -/
def level : String :=
  "sched:tasks"

/- The tasks of a store, by key. -/
def of
    (s : Store) : Level :=
  s.level level

/- Puts all tasks into the queue at once. -/
def schedule
    (tasks : List Task)
    (s : Store) : Store :=
  s.setLevel level
    ((of s).insertAll
      (tasks.map fun t => (t.key, Wire.text t.stored)))

/- Takes a task out of the queue, if it is there. -/
def cancel
    (key : String)
    (s : Store) : Bool × Store :=
  s.onLevel level fun l => l.delete key

end TaskQueue

end JourneyMatch
