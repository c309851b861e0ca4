import JourneyMatch.Task.Firing

/-
  This file defines the janitor, which removes entries after
  their time: it schedules a task that names a level and a
  key, and carries the task out when it is due.

  An entry that names its own expiry task is only removed by
  that task, so that a task left behind by an earlier entry
  does no harm to a later one.

  Key definitions include:
    * `SweepPayload`
    * `SweepRequest`
    * `Janitor.task`
    * `Janitor.schedule`
    * `ExpiryOwner`
    * `sweptBy`
    * `Janitor.sweep`
-/

namespace JourneyMatch

------------------------------------------------------------
-- Tasks of the janitor
------------------------------------------------------------

/- The type of the janitor's tasks. -/
def sweepType : String :=
  "janitor.sweep"

/- What a task of the janitor removes. -/
structure SweepPayload where
  level : String
  key : String
  deriving DecidableEq, Repr

/- The fields of a sweep payload. -/
def SweepPayload.fields : Fields :=
  .cons "sublevel" .text .required <|
  .cons "key" .text .required .nil

instance : Wire SweepPayload where
  shape := .record SweepPayload.fields
  pack p := (p.level, p.key, ())
  unpack
    | (level, key, ()) => ⟨level, key⟩
  unpack_pack _ := rfl

/- A sweep payload as a value, its members in key order. -/
def SweepPayload.json
    (p : SweepPayload) : Json :=
  .object [("key", .string p.key), ("sublevel", .string p.level)]

/-
  A removal to schedule, after an expiry in milliseconds or
  after the usual one.
-/
structure SweepRequest where
  level : String
  key : String
  expiry : Option Nat
  deriving DecidableEq, Repr

namespace Janitor

/- The instant at which a removal is due. -/
def due
    (now : Instant)
    (expiry : Nat) : Instant :=
  ((Moment.utc now).after (expiry * 1000000)).instant

/- What a removal asks to be scheduled. -/
def request
    (now : Instant)
    (usual : Nat)
    (r : SweepRequest) : TaskRequest :=
  { due := due now (r.expiry.getD usual)
    type := sweepType
    payload := (SweepPayload.mk r.level r.key).json }

/- The task of a removal. -/
def task
    (now : Instant)
    (usual : Nat)
    (tag : String)
    (r : SweepRequest) : Task :=
  (request now usual r).task tag

/- Schedules removals and gives the keys of their tasks. -/
def schedule
    (now : Instant)
    (usual : Nat)
    (requests : List SweepRequest)
    (tags : TagSource)
    (s : Store) : List String × TagSource × Store :=
  let (tasks, tags) :=
    drawTasks (requests.map (request now usual)) tags
  (tasks.map (·.key), tags, TaskQueue.schedule tasks s)

end Janitor

------------------------------------------------------------
-- Sweeping
------------------------------------------------------------

/- The part of a stored text that names its expiry task. -/
structure ExpiryOwner where
  expiryTask : String
  deriving DecidableEq, Repr

/- The fields of an expiry owner. -/
def ExpiryOwner.fields : Fields :=
  .cons "expiryTask" .text .required .nil

instance : Wire ExpiryOwner where
  shape := .record ExpiryOwner.fields
  pack o := (o.expiryTask, ())
  unpack
    | (expiryTask, ()) => ⟨expiryTask⟩
  unpack_pack _ := rfl

/-
  Whether a task may remove a stored text: one that names no
  expiry task may be removed by any.
-/
def sweptBy
    (taskKey text : String) : Bool :=
  match Wire.parse ExpiryOwner text with
  | .ok owner => owner.expiryTask = taskKey
  | .error _ => true

/-
  Carries out a task of the janitor. A key or a level that is
  gone is no failure.
-/
def Janitor.sweep : Listener := fun task s =>
  match Wire.decode SweepPayload task.payload with
  | .error _ => (false, s)
  | .ok payload =>
      match s.existing payload.level with
      | .error _ => (true, s)
      | .ok _ =>
          let (_, s) :=
            s.onLevel payload.level fun l =>
              l.deleteIf payload.key (sweptBy task.key)
          (true, s)

end JourneyMatch
