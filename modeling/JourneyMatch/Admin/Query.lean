import JourneyMatch.Pending
import JourneyMatch.Task.Basic

/-
  This file defines what an operator can ask of a store, and
  the answers: lists of the entries that wait and of the
  tasks, and their removal one at a time.

  Key definitions include:
    * `clampLimit`
    * `ListPendingQuery`
    * `ListTasksQuery`
    * `PendingEntry`
    * `TaskEntry`
    * `Admin.listPending`
    * `Admin.deletePending`
    * `Admin.listTasks`
    * `Admin.deleteTask`
-/

namespace JourneyMatch

------------------------------------------------------------
-- Limits
------------------------------------------------------------

/- The number of entries in a list if none is asked for. -/
def defaultLimit : Nat :=
  20

/- The greatest number of entries in a list. -/
def greatestLimit : Nat :=
  200

/- Brings a limit into the range from one to the greatest. -/
def clampLimit
    (limit : Nat) : Nat :=
  max 1 (min limit greatestLimit)

/- No list is asked to be empty. -/
theorem clampLimit_pos
    (limit : Nat) :
    0 < clampLimit limit :=
  Nat.lt_of_lt_of_le Nat.zero_lt_one (Nat.le_max_left _ _)

------------------------------------------------------------
-- Queries
------------------------------------------------------------

/- Asks for the entries of a namespace. -/
structure ListPendingQuery where
  nameSpace : String
  subscription : Option String
  limit : UInt64
  deriving DecidableEq, Repr

/- The fields of a query for entries. -/
def ListPendingQuery.fields : Fields :=
  .cons "namespace" .text .required <|
  .cons "subscription_id" (.optional .text) .blankByName <|
  .cons "limit" .word64 (.count 20) .nil

instance : Wire ListPendingQuery where
  shape := .record ListPendingQuery.fields
  pack q := (q.nameSpace, q.subscription, q.limit, ())
  unpack
    | (nameSpace, subscription, limit, ()) =>
      ⟨nameSpace, subscription, limit⟩
  unpack_pack _ := rfl

/- Asks for the tasks after a key. -/
structure ListTasksQuery where
  after : Option String
  limit : UInt64
  deriving DecidableEq, Repr

/- The fields of a query for tasks. -/
def ListTasksQuery.fields : Fields :=
  .cons "after" (.optional .text) .blankByName <|
  .cons "limit" .word64 (.count 20) .nil

instance : Wire ListTasksQuery where
  shape := .record ListTasksQuery.fields
  pack q := (q.after, q.limit, ())
  unpack
    | (after, limit, ()) => ⟨after, limit⟩
  unpack_pack _ := rfl

------------------------------------------------------------
-- Answers
------------------------------------------------------------

/- An entry of a namespace. -/
structure PendingEntry where
  nameSpace : String
  key : String
  expiryTask : String
  storedAt : Int64
  message : Json

/- The fields of an entry. -/
def PendingEntry.fields : Fields :=
  .cons "namespace" .text .required <|
  .cons "key" .text .required <|
  .cons "expiryTask" .text .required <|
  .cons "storedAt" .signed64 .required <|
  .cons "message" .free .required .nil

instance : Wire PendingEntry where
  shape := .record PendingEntry.fields
  pack e := (e.nameSpace, e.key, e.expiryTask, e.storedAt,
    e.message, ())
  unpack
    | (nameSpace, key, expiryTask, storedAt, message, ()) =>
      ⟨nameSpace, key, expiryTask, storedAt, message⟩
  unpack_pack _ := rfl

/- A task of the queue. -/
structure TaskEntry where
  key : String
  type : String
  payload : Json

/- The fields of a task. -/
def TaskEntry.fields : Fields :=
  .cons "key" .text .required <|
  .cons "type" .text .required <|
  .cons "payload" .free .required .nil

instance : Wire TaskEntry where
  shape := .record TaskEntry.fields
  pack e := (e.key, e.type, e.payload, ())
  unpack
    | (key, type, payload, ()) => ⟨key, type, payload⟩
  unpack_pack _ := rfl

------------------------------------------------------------
-- Operations
------------------------------------------------------------

namespace Admin

/- What the keys of a list begin with. -/
def keyStart : Option String → String
  | none => ""
  | some subscription => subscriptionStart subscription

/- The entry of a key and its record. -/
def pendingEntry
    (n : Namespace)
    (key : String)
    (record : PendingRecord Json) : PendingEntry :=
  { nameSpace := n.name
    key
    expiryTask := record.expiryTask
    storedAt := record.storedAt
    message := record.message }

/-
  The first entries of a namespace, of all subscriptions or
  of one.
-/
def listPending
    (n : Namespace)
    (subscription : Option String)
    (limit : Nat)
    (s : Store) : Except StoreError (List PendingEntry) :=
  let entries :=
    (Pending.level n s).startingWith (keyStart subscription)
  (decodeEntries (PendingRecord Json)
      (entries.take (clampLimit limit))).map
    fun records =>
      records.map fun (key, record) => pendingEntry n key record

/-
  Removes an entry and its task, and tells whether it was
  there.
-/
def deletePending
    (n : Namespace)
    (key : String)
    (s : Store) : Except StoreError Bool × Store :=
  match
    s.onLevel n.name fun l => l.take (PendingRecord Json) key
  with
  | (.error cause, _) => (.error cause, s)
  | (.ok none, _) => (.ok false, s)
  | (.ok (some record), s) =>
      (.ok true, (TaskQueue.cancel record.expiryTask s).2)

/- The first tasks after a key, or the first of all. -/
def listTasks
    (after : Option String)
    (limit : Nat)
    (s : Store) : Except StoreError (List TaskEntry) :=
  let entries := (TaskQueue.of s).after after
  (decodeEntries StoredTask
      (entries.take (clampLimit limit))).map
    fun tasks =>
      tasks.map fun (key, task) => ⟨key, task.type, task.payload⟩

/- Removes a task and tells whether it was there. -/
def deleteTask
    (key : String)
    (s : Store) : Bool × Store :=
  TaskQueue.cancel key s

end Admin

end JourneyMatch
